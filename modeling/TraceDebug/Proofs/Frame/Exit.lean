import TraceDebug.Proofs.Frame.Stacks
import TraceDebug.Proofs.Nearest

/-!
# Where frames are left

The replay writes the exit of a frame into it when a later step runs higher up, and
then closes all frames above it at once. So the exit noted in a frame is the first
step ahead at a smaller level, and a frame without exit has no such step ahead.
-/

namespace TraceDebug

namespace Replay

/-- The stack grows and shrinks with the depth markers. -/
theorem Reaches.depth_eq {t : Trace} {i : Nat} {r : Replay} (h : Reaches t i r) {first s : Step}
    (outermost : t.steps[0]? = some first) (here : t.steps[i]? = some s) :
    s.depth + 1 = first.depth + r.stack.length := by
  induction h generalizing s with
  | start =>
    obtain rfl : first = s := Option.some.inj (outermost.symm.trans here)
    rfl
  | @next i r _ before after _ hb ha advanced ih =>
    obtain rfl : after = s := Option.some.inj (ha.symm.trans here)
    have caller := ih hb
    rcases advance_cases advanced with ⟨same, rfl⟩ | ⟨address, deeper, -, rfl⟩ |
      ⟨returns, top, returned, -, remaining, rfl⟩
    · omega
    · have grown : (r.enter (i + 1) address).stack.length = r.stack.length + 1 := rfl
      omega
    · have shrunk : (r.left (i + 1) returns top).stack.length = r.stack.length - returns :=
        List.length_drop
      have few : returns < r.stack.length := by
        apply Nat.lt_of_not_le
        intro all
        simp [List.drop_eq_nil_iff.mpr all] at remaining
      omega

end Replay

namespace FrameIndex

variable {t : Trace} {ix : FrameIndex} {i j exit : Nat} {f g : CallFrame} {stack : List CallFrame}

theorem step?_of_frameAt (built : build t = .ok ix) (found : ix.frameAt i = .ok (.ok f)) :
    ∃ s, t.steps[i]? = some s := by
  have inside : i < t.steps.length := by
    have bound := (replayed_of_frameAt found).1
    rwa [length_of_build built] at bound
  exact ⟨_, List.getElem?_eq_getElem inside⟩

theorem depth_eq_of_frameAt (built : build t = .ok ix) (found : ix.frameAt i = .ok (.ok f))
    {first s : Step} (outermost : t.steps[0]? = some first) (here : t.steps[i]? = some s) :
    s.depth = first.depth + f.depth := by
  obtain ⟨r, last, malformed, rfl, reached, later, before⟩ := passed_of_frameAt built found
  obtain ⟨top, found', height, -⟩ := reached.frameAt later before
  obtain rfl : top = f := answer_unique found' found
  have marked := reached.depth_eq outermost here
  omega

/-- The levels of two frames differ as the depth markers of their steps do. -/
theorem depth_add_eq (built : build t = .ok ix) (here : ix.frameAt i = .ok (.ok f))
    (there : ix.frameAt j = .ok (.ok g)) {s s' : Step} (hs : t.steps[i]? = some s)
    (hs' : t.steps[j]? = some s') : s.depth + g.depth = s'.depth + f.depth := by
  have positive : 0 < t.steps.length :=
    Nat.zero_lt_of_lt (List.getElem?_eq_some_iff.mp hs).1
  have outermost : t.steps[0]? = some t.steps[0] := List.getElem?_eq_getElem positive
  rw [depth_eq_of_frameAt built here outermost hs, depth_eq_of_frameAt built there outermost hs']
  exact Nat.add_right_comm ..

theorem nested_of_frameAt (built : build t = .ok ix) (here : ix.frameAt i = .ok (.ok f)) :
    ix.Nested t := by
  have inside := (replayed_of_frameAt here).1
  obtain ⟨s, malformed, rfl, ends⟩ := ends_of_build (steps_ne_nil built inside) built
  exact nested_ofReplay ends

theorem Nested.outermost_of_id (nested : ix.Nested t) (mem : f ∈ ix.frames) (first : f.id = ⟨0⟩) :
    f.parent = none ∧ f.depth = 0 ∧ f.enteredAt = 0 := by
  obtain ⟨root, placed, parent, depth, -, entered⟩ := nested.outermost
  obtain ⟨k, found⟩ := List.mem_iff_getElem?.mp mem
  have number := nested.numbered k f found
  rw [first] at number
  cases number
  obtain rfl : f = root := Option.some.inj (found.symm.trans placed)
  exact ⟨parent, depth, entered⟩

theorem Nested.depth_of_outermost (nested : ix.Nested t) (mem : f ∈ ix.frames)
    (outermost : f.parent = none) : f.depth = 0 := by
  by_cases first : f.id = ⟨0⟩
  · exact (nested.outermost_of_id mem first).2.1
  · obtain ⟨g, -, entered⟩ := nested.entered f mem first
    cases outermost.symm.trans entered.parent

theorem frameAt_of_replayed (nested : ix.Nested t) (replayed : ix.Replayed i) :
    ∃ f, ix.frameAt i = .ok (.ok f) := by
  obtain ⟨stack, known, -⟩ := nested.contains i replayed
  obtain ⟨f, found, -⟩ := frameAt_of_stackAt known
  exact ⟨f, found⟩

theorem mem_stackAt_iff_contains (nested : ix.Nested t) (known : ix.stackAt i = .ok (.ok stack)) :
    f ∈ stack ↔ f ∈ ix.frames ∧ f.contains i = true := by
  obtain ⟨top, found, -⟩ := frameAt_of_stackAt known
  obtain ⟨stack', known', contained⟩ := nested.contains i (replayed_of_frameAt found)
  obtain rfl : stack' = stack := answer_unique known' known
  exact contained f

theorem contains_of_frameAt (built : build t = .ok ix) (here : ix.frameAt i = .ok (.ok f)) :
    f ∈ ix.frames ∧ f.contains i = true := by
  obtain ⟨stack, known, -, mem, -⟩ := stackAt_of_frameAt built here
  exact (mem_stackAt_iff_contains (nested_of_frameAt built here) known).mp mem

/-- A step inside a frame runs in it or deeper. -/
theorem depth_le_of_contains (built : build t = .ok ix) (found : ix.frameAt i = .ok (.ok g))
    (mem : f ∈ ix.frames) (inside : f.contains i = true) : f.depth ≤ g.depth := by
  obtain ⟨stack, known, -⟩ := stackAt_of_frameAt built found
  have stacked := (mem_stackAt_iff_contains (nested_of_frameAt built found) known).mpr ⟨mem, inside⟩
  exact depth_le_of_mem_stackAt built found known stacked

/-- A frame that a step no longer has on its stack, although the step before had, was above
the frame of the step. -/
theorem depth_lt_of_left (built : build t = .ok ix) {next : List CallFrame}
    (now : ix.stackAt i = .ok (.ok stack)) (after : ix.stackAt (i + 1) = .ok (.ok next))
    (found : ix.frameAt (i + 1) = .ok (.ok g)) (mem : f ∈ stack) (left : f ∉ next) :
    g.depth < f.depth := by
  obtain ⟨top, here, -⟩ := frameAt_of_stackAt now
  obtain ⟨-, -, placed⟩ := placed_of_stackAt built here now
  obtain ⟨height, -⟩ := placed_of_stackAt built found after
  rcases stackAt_succ_cases built now after with rfl | ⟨newest, rfl⟩ | ⟨kept, rfl⟩
  · exact absurd mem left
  · exact absurd (List.mem_append_left _ mem) left
  · obtain ⟨place, listed⟩ := List.mem_iff_getElem?.mp mem
    have above : kept ≤ place := by
      apply Nat.le_of_not_lt
      intro below
      apply left
      apply List.mem_of_getElem? (i := place)
      rw [List.getElem?_take_of_lt below]
      exact listed
    have depth := placed place f listed
    rw [List.length_take] at height
    omega

theorem exists_frameAt_exit (built : build t = .ok ix) (nested : ix.Nested t)
    (mem : f ∈ ix.frames) (left : f.exitedAt = some exit) :
    ∃ g, ix.frameAt exit = .ok (.ok g) ∧ g.depth < f.depth := by
  obtain ⟨entered, -, replayed⟩ := nested.exited f mem exit left
  obtain ⟨g, found⟩ := frameAt_of_replayed nested replayed
  refine ⟨g, found, ?_⟩
  cases exit with
  | zero => exact absurd entered (Nat.not_lt_zero _)
  | succ last =>
    obtain ⟨top, before⟩ := frameAt_of_earlier built (Nat.le_succ last) found
    obtain ⟨stack, now, -⟩ := stackAt_of_frameAt built before
    obtain ⟨next, after, -⟩ := stackAt_of_frameAt built found
    apply depth_lt_of_left built now after found
    · apply (mem_stackAt_iff_contains nested now).mpr
      refine ⟨mem, CallFrame.contains_iff.mpr ⟨Nat.le_of_lt_succ entered, ?_⟩⟩
      intro exit left'
      obtain rfl : exit = last + 1 := Option.some.inj (left'.symm.trans left)
      exact Nat.lt_succ_self last
    · intro stacked
      have inside := ((mem_stackAt_iff_contains nested after).mp stacked).2
      exact Nat.lt_irrefl _ ((CallFrame.contains_iff.mp inside).2 _ left)

/-- The steps ahead of a step that run at a smaller level than it does. -/
def shallowerAhead (ix : FrameIndex) (step : Nat) : Set Nat :=
  {i | step < i ∧ ∃ here there, ix.depthAt step = .ok (.ok here) ∧
    ix.depthAt i = .ok (.ok there) ∧ there < here}

theorem depthAt_eq_ok {depth : Nat} :
    ix.depthAt i = .ok (.ok depth) ↔ ∃ f, ix.frameAt i = .ok (.ok f) ∧ f.depth = depth := by
  unfold depthAt
  cases ix.frameAt i with
  | error fault => simp [Except.map]
  | ok answer => cases answer <;> simp [Except.map]

theorem mem_shallowerAhead_iff (here : ix.frameAt i = .ok (.ok f)) :
    j ∈ ix.shallowerAhead i ↔ i < j ∧ ∃ g, ix.frameAt j = .ok (.ok g) ∧ g.depth < f.depth := by
  simp only [shallowerAhead, Set.mem_ofPred_eq, depthAt_eq_ok, here]
  constructor
  · rintro ⟨ahead, -, -, ⟨f', same, rfl⟩, ⟨g, there, rfl⟩, shallower⟩
    cases same
    exact ⟨ahead, g, there, shallower⟩
  · rintro ⟨ahead, g, there, shallower⟩
    exact ⟨ahead, f.depth, g.depth, ⟨f, rfl, rfl⟩, ⟨g, there, rfl⟩, shallower⟩

/-- Up to the exit of a frame the steps ahead run in it or deeper. -/
theorem exited_of_shallower (built : build t = .ok ix) (here : ix.frameAt i = .ok (.ok f))
    (ahead : j ∈ ix.shallowerAhead i) : ∃ exit, f.exitedAt = some exit ∧ exit ≤ j := by
  obtain ⟨later, g, there, shallower⟩ := (mem_shallowerAhead_iff here).mp ahead
  obtain ⟨mem, inside⟩ := contains_of_frameAt built here
  by_contra unleft
  have contained : f.contains j = true := by
    apply CallFrame.contains_iff.mpr
    refine ⟨Nat.le_trans (CallFrame.contains_iff.mp inside).1 (Nat.le_of_lt later), ?_⟩
    intro exit left
    exact Nat.lt_of_not_le fun behind => unleft ⟨exit, left, behind⟩
  exact absurd (depth_le_of_contains built there mem contained) (Nat.not_le.mpr shallower)

/-- The exit noted in the frame of a step is the first step ahead at a smaller level, and
there is no such step if no exit is noted. -/
theorem exitedAt_iff (built : build t = .ok ix) (here : ix.frameAt i = .ok (.ok f)) :
    (∀ exit, f.exitedAt = some exit ↔ IsLeast (ix.shallowerAhead i) exit) ∧
      (f.exitedAt = none ↔ ix.shallowerAhead i = ∅) := by
  apply found_iff_isLeast
  · intro exit left
    obtain ⟨mem, inside⟩ := contains_of_frameAt built here
    have ahead := (CallFrame.contains_iff.mp inside).2 exit left
    have nested := nested_of_frameAt built here
    obtain ⟨g, there, shallower⟩ := exists_frameAt_exit built nested mem left
    exact (mem_shallowerAhead_iff here).mpr ⟨ahead, g, there, shallower⟩
  · intro j ahead
    exact exited_of_shallower built here ahead

/-- The outermost frame is at the smallest level, so it is never left. -/
theorem exitedAt_of_outermost (built : build t = .ok ix) (here : ix.frameAt i = .ok (.ok f))
    (outermost : f.parent = none) : f.exitedAt = none := by
  obtain ⟨mem, -⟩ := contains_of_frameAt built here
  have level := (nested_of_frameAt built here).depth_of_outermost mem outermost
  apply (exitedAt_iff built here).2.mpr
  apply Set.eq_empty_of_forall_notMem
  intro j ahead
  obtain ⟨-, g, -, shallower⟩ := (mem_shallowerAhead_iff here).mp ahead
  rw [level] at shallower
  exact Nat.not_lt_zero _ shallower

end FrameIndex

end TraceDebug

import TraceDebug.Proofs.Frame.Exit
import TraceDebug.Proofs.Navigator.StepOver

/-!
# Stepping over and back again

Stepping over ahead and back pass the same steps, so inside one frame each undoes the
other. At the ends of a frame they part: ahead the frame is left at its exit, and back it
is left through the step that opened it.
-/

namespace TraceDebug

namespace FrameIndex

variable {t : Trace} {ix : FrameIndex} {i j cursor step : Nat} {f g : CallFrame}
  {stack : List CallFrame}

theorem DeeperBetween.symm (h : ix.DeeperBetween f i j) : ix.DeeperBetween f j i := by
  intro k lower upper
  rw [Nat.min_comm] at lower
  rw [Nat.max_comm] at upper
  exact h k lower upper

/-- No step between runs in a frame of the stack. -/
theorem DeeperBetween.not_mem (between : ix.DeeperBetween f i j) (built : build t = .ok ix)
    (here : ix.frameAt cursor = .ok (.ok f)) (known : ix.stackAt cursor = .ok (.ok stack))
    (lower : min i j < step) (upper : step < max i j)
    (there : ix.frameAt step = .ok (.ok g)) : g ∉ stack := by
  intro mem
  obtain ⟨g', there', deeper⟩ := between step lower upper
  obtain rfl : g' = g := answer_unique there' there
  exact absurd (depth_le_of_mem_stackAt built here known mem) (Nat.not_le.mpr deeper)

/-- A frame that runs right behind a shallower step was opened by it. -/
theorem opened_of_depth_lt (built : build t = .ok ix) (here : ix.frameAt i = .ok (.ok g))
    (after : ix.frameAt (i + 1) = .ok (.ok f)) (shallower : g.depth < f.depth) :
    f.enteredAt = i + 1 ∧ ∃ s, t.step? i = some s ∧ s.opened? i = some f.address := by
  have nested := nested_of_frameAt built after
  obtain ⟨mem, inside⟩ := contains_of_frameAt built after
  obtain ⟨entered, unleft⟩ := CallFrame.contains_iff.mp inside
  have start : f.enteredAt = i + 1 := by
    apply Nat.le_antisymm entered
    by_contra early
    have contained : f.contains i = true := by
      apply CallFrame.contains_iff.mpr
      exact ⟨by omega, fun exit left => Nat.lt_of_succ_lt (unleft exit left)⟩
    exact absurd (depth_le_of_contains built here mem contained) (Nat.not_le.mpr shallower)
  refine ⟨start, ?_⟩
  have later : f.id ≠ ⟨0⟩ := by
    intro first
    have zero := (nested.outermost_of_id mem first).2.2
    omega
  obtain ⟨caller, -, entered⟩ := nested.entered f mem later
  have opened := entered.opened
  rw [start] at opened
  exact opened

end FrameIndex

namespace Navigator

variable {t : Trace} {ix : FrameIndex} {n : Navigator} {f g : CallFrame} {stack : List CallFrame}
  {step : Nat}

/-- Back from a step ahead in the same frame, with deeper steps between only. -/
theorem stepOverBack_eq (built : FrameIndex.build t = .ok ix)
    (here : ix.frameAt n.cursor = .ok (.ok f)) {earlier : Nat}
    (there : ix.frameAt earlier = .ok (.ok f)) (before : earlier < n.cursor)
    (between : ix.DeeperBetween f earlier n.cursor) :
    n.target ix .stepOverBack = .ok (some earlier) := by
  obtain ⟨stack, known, -, mem, -⟩ := FrameIndex.stackAt_of_frameAt built here
  apply ((stepOverBack_iff built here known).1 earlier).mpr
  refine ⟨⟨before, f, mem, there⟩, ?_⟩
  rintro i ⟨upper, g, stacked, runs⟩
  by_contra later
  exact absurd stacked (between.not_mem built here known (by omega) (by omega) runs)

/-- Ahead to a later step in the same frame, with deeper steps between only. -/
theorem stepOverForward_eq (built : FrameIndex.build t = .ok ix)
    (here : ix.frameAt n.cursor = .ok (.ok f)) (addressable : n.cursor + 1 < wordLimit)
    {later : Nat} (there : ix.frameAt later = .ok (.ok f)) (after : n.cursor < later)
    (inside : later < n.length)
    (between : ix.DeeperBetween f n.cursor later) :
    n.target ix .stepOverForward = .ok (some later) := by
  obtain ⟨stack, known, -, mem, -⟩ := FrameIndex.stackAt_of_frameAt built here
  apply ((stepOverForward_iff built here known addressable).1 later).mpr
  refine ⟨⟨after, inside, .inr ⟨f, mem, there⟩⟩, ?_⟩
  rintro i ⟨lower, -, stop⟩
  by_contra earlier
  obtain ⟨h, runs, -⟩ := between i (by omega) (by omega)
  rcases stop with ⟨e, unknown⟩ | ⟨g, stacked, runs'⟩
  · cases unknown.symm.trans runs
  · exact absurd stacked (between.not_mem built here known (by omega) (by omega) runs')

/-- The first step ahead in another frame of the stack is the exit. -/
theorem exitedAt_of_forward (built : FrameIndex.build t = .ok ix)
    (here : ix.frameAt n.cursor = .ok (.ok f)) (known : ix.stackAt n.cursor = .ok (.ok stack))
    (between : ix.DeeperBetween f n.cursor step) (after : n.cursor < step) (mem : g ∈ stack)
    (other : g ≠ f) (there : ix.frameAt step = .ok (.ok g)) : f.exitedAt = some step := by
  apply ((FrameIndex.exitedAt_iff built here).1 step).mpr
  have shallower := FrameIndex.depth_lt_of_mem_stackAt built here known mem other
  refine ⟨(FrameIndex.mem_shallowerAhead_iff here).mpr ⟨after, g, there, shallower⟩, ?_⟩
  intro i ahead
  obtain ⟨lower, h, runs, above⟩ := (FrameIndex.mem_shallowerAhead_iff here).mp ahead
  by_contra early
  obtain ⟨h', runs', below⟩ := between i (by omega) (by omega)
  obtain rfl : h' = h := FrameIndex.answer_unique runs' runs
  omega

/-- The last step behind in another frame of the stack opened the frame. -/
theorem opened_of_back (built : FrameIndex.build t = .ok ix)
    (here : ix.frameAt n.cursor = .ok (.ok f)) (known : ix.stackAt n.cursor = .ok (.ok stack))
    (between : ix.DeeperBetween f n.cursor step) (before : step < n.cursor) (mem : g ∈ stack)
    (other : g ≠ f) (there : ix.frameAt step = .ok (.ok g)) :
    f.enteredAt = step + 1 ∧ n.cursor = step + 1 ∧
      ∃ s, t.step? step = some s ∧ s.opened? step = some f.address := by
  have shallower := FrameIndex.depth_lt_of_mem_stackAt built here known mem other
  have next : n.cursor = step + 1 := by
    by_contra apart
    -- A deeper step right behind would be two levels below the target.
    obtain ⟨h, runs, deeper⟩ := between (step + 1) (by omega) (by omega)
    have grown := FrameIndex.depth_succ_le built there runs
    omega
  rw [next] at here
  obtain ⟨entered, opened⟩ := FrameIndex.opened_of_depth_lt built there here shallower
  exact ⟨entered, next, opened⟩

/-- From a cursor in the frame `f`, stepping over can be undone in the frame, and leaves
the frame at its ends only. -/
structure Retraces (n : Navigator) (t : Trace) (ix : FrameIndex) (f : CallFrame) : Prop where
  forwardBack : ∀ step, n.target ix .stepOverForward = .ok (some step) →
    ix.frameAt step = .ok (.ok f) →
      { n with cursor := step }.target ix .stepOverBack = .ok (some n.cursor)
  backForward : ∀ step, n.target ix .stepOverBack = .ok (some step) →
    ix.frameAt step = .ok (.ok f) →
      { n with cursor := step }.target ix .stepOverForward = .ok (some n.cursor)
  forwardOut : ∀ step g, n.target ix .stepOverForward = .ok (some step) →
    ix.frameAt step = .ok (.ok g) → g ≠ f → f.exitedAt = some step
  /-- The cursor is at the entry, and the step before it is the call or the creation. -/
  backOut : ∀ step g, n.target ix .stepOverBack = .ok (some step) →
    ix.frameAt step = .ok (.ok g) → g ≠ f →
      f.enteredAt = step + 1 ∧ n.cursor = step + 1 ∧
        ∃ s, t.step? step = some s ∧ s.opened? step = some f.address

/-- Inside a frame stepping over ahead and back undo each other, and they leave it at its
exit and through its entry. -/
theorem stepping_over_retraces (built : FrameIndex.build t = .ok ix)
    (addressable : t.length < wordLimit) (inside : n.cursor < n.length)
    (here : ix.frameAt n.cursor = .ok (.ok f)) : n.Retraces t ix f := by
  have length := FrameIndex.length_of_build built
  have bound := (FrameIndex.replayed_of_frameAt here).1
  obtain ⟨stack, known, -⟩ := FrameIndex.stackAt_of_frameAt built here
  have addressable : n.cursor + 1 < wordLimit := by omega
  have ahead := (stepOverForward_iff built here known addressable).1
  have behind := (stepOverBack_iff built here known).1
  exact {
    forwardBack := by
      intro step led there
      have between := deeperBetween_of_forward built here addressable led
      obtain ⟨after, -⟩ := ((ahead step).mp led).1
      exact stepOverBack_eq (n := { n with cursor := step }) built there here after between
    backForward := by
      intro step led there
      have between := deeperBetween_of_back built here led
      obtain ⟨before, -⟩ := ((behind step).mp led).1
      exact stepOverForward_eq (n := { n with cursor := step }) built there
        (show step + 1 < wordLimit by omega) here before inside between.symm
    forwardOut := by
      intro step g led there other
      have between := deeperBetween_of_forward built here addressable led
      obtain ⟨after, -, stop⟩ := ((ahead step).mp led).1
      rcases stop with ⟨e, unknown⟩ | ⟨g', mem, there'⟩
      · cases unknown.symm.trans there
      · obtain rfl : g' = g := FrameIndex.answer_unique there' there
        exact exitedAt_of_forward built here known between after mem other there
    backOut := by
      intro step g led there other
      have between := deeperBetween_of_back built here led
      obtain ⟨before, g', mem, there'⟩ := ((behind step).mp led).1
      obtain rfl : g' = g := FrameIndex.answer_unique there' there
      exact opened_of_back built here known between before mem other there }

/-- Over the init code of a creation and back; and out of the first of three calls that end
together, at its exit and through its entry. -/
theorem nestedCreations_retraces :
    ∃ ix, FrameIndex.build FrameIndex.nestedCreations = .ok ix ∧
      FrameIndex.nestedCreations.length < wordLimit ∧
      (∃ f, ix.frameAt 4 = .ok (.ok f) ∧
        (⟨4, 9⟩ : Navigator).Retraces FrameIndex.nestedCreations ix f ∧
        (⟨4, 9⟩ : Navigator).target ix .stepOverForward = .ok (some 6) ∧
        (⟨6, 9⟩ : Navigator).target ix .stepOverBack = .ok (some 4)) ∧
      ∃ f, ix.frameAt 1 = .ok (.ok f) ∧
        (⟨1, 9⟩ : Navigator).Retraces FrameIndex.nestedCreations ix f ∧
        (⟨1, 9⟩ : Navigator).target ix .stepOverForward = .ok (some 4) ∧ f.exitedAt = some 4 ∧
        (⟨1, 9⟩ : Navigator).target ix .stepOverBack = .ok (some 0) ∧ f.enteredAt = 1 := by
  have nonempty : FrameIndex.nestedCreations.steps ≠ [] := by decide
  have bounded : ∀ s ∈ FrameIndex.nestedCreations.steps, s.depth + 1 < wordLimit := by decide
  obtain ⟨s, malformed, built, -⟩ := FrameIndex.exists_build nonempty bounded
  have addressable : FrameIndex.nestedCreations.length < wordLimit := by decide
  have outer : ∀ step ∈ [0, 4, 6], (FrameIndex.build FrameIndex.nestedCreations).bind
      (·.frameAt step) = .ok (.ok ⟨⟨0⟩, none, 0, .contract (.ofLast 0xaa), 0, none⟩) := by decide
  have called : (FrameIndex.build FrameIndex.nestedCreations).bind (·.frameAt 1) =
      .ok (.ok ⟨⟨1⟩, some ⟨0⟩, 1, .contract (.ofLast 0xbb), 1, some 4⟩) := by decide
  have across : (FrameIndex.build FrameIndex.nestedCreations).bind
      ((⟨4, 9⟩ : Navigator).target · .stepOverForward) = .ok (some 6) := by decide
  have out : (FrameIndex.build FrameIndex.nestedCreations).bind
      ((⟨1, 9⟩ : Navigator).target · .stepOverForward) = .ok (some 4) := by decide
  have back : (FrameIndex.build FrameIndex.nestedCreations).bind
      ((⟨1, 9⟩ : Navigator).target · .stepOverBack) = .ok (some 0) := by decide
  rw [built] at outer called across out back
  have retraces : (⟨4, 9⟩ : Navigator).Retraces _ _ _ :=
    stepping_over_retraces built addressable (by decide) (outer 4 (by decide))
  have leaves : (⟨1, 9⟩ : Navigator).Retraces _ _ _ :=
    stepping_over_retraces built addressable (by decide) called
  exact ⟨_, built, addressable,
    ⟨_, outer 4 (by decide), retraces, across, retraces.forwardBack 6 across (outer 6 (by decide))⟩,
    _, called, leaves, out, leaves.forwardOut 4 _ out (outer 4 (by decide)) (by decide), back,
    (leaves.backOut 0 _ back (outer 0 (by decide)) (by decide)).1⟩

end Navigator

end TraceDebug

import TraceDebug.Proofs.Frame.Exit
import TraceDebug.Proofs.Navigator.StepOver

/-!
# Jumping out of a call

Jumping out reads the exit noted in the frame of the cursor. It leads where a plain
search ahead for a smaller level would, and into a caller of that frame.
-/

namespace TraceDebug

namespace FrameIndex

variable {t : Trace} {ix : FrameIndex} {i exit : Nat} {f g : CallFrame}

/-- The depth markers behind a step fall below its own only where the trace is malformed. -/
def StaysOpen (ix : FrameIndex) (t : Trace) (step : Nat) : Prop :=
  ∀ i s s', step < i → t.step? step = some s → t.step? i = some s' → s'.depth < s.depth →
    ∃ m, ix.malformedAt = some m ∧ m ≤ i

/-- No step ahead is known to run at a smaller level just when no marker that makes sense says
so. -/
theorem staysOpen_iff (built : build t = .ok ix) (here : ix.frameAt i = .ok (.ok f)) :
    ix.StaysOpen t i ↔ ix.shallowerAhead i = ∅ := by
  obtain ⟨s, hs⟩ := step?_of_frameAt built here
  constructor
  · intro isOpen
    apply Set.eq_empty_of_forall_notMem
    intro j ahead
    obtain ⟨later, g, there, shallower⟩ := (mem_shallowerAhead_iff here).mp ahead
    obtain ⟨s', hs'⟩ := step?_of_frameAt built there
    have levels := depth_add_eq built here there hs hs'
    obtain ⟨m, malformed, behind⟩ := isOpen j s s' later hs hs' (by omega)
    exact absurd ((replayed_of_frameAt there).2 m malformed) (Nat.not_lt.mpr behind)
  · intro empty j s₁ s' later hs₁ hs' lower
    obtain rfl : s₁ = s := Option.some.inj (hs₁.symm.trans hs)
    by_contra wellFormed
    have replayed : ix.Replayed j := by
      refine ⟨?_, ?_⟩
      · rw [length_of_build built]
        exact (List.getElem?_eq_some_iff.mp hs').1
      · intro m malformed
        exact Nat.lt_of_not_le fun behind => wellFormed ⟨m, malformed, behind⟩
    obtain ⟨g, there⟩ := frameAt_of_replayed (nested_of_frameAt built here) replayed
    have levels := depth_add_eq built here there hs hs'
    have ahead : j ∈ ix.shallowerAhead i :=
      (mem_shallowerAhead_iff here).mpr ⟨later, g, there, by omega⟩
    exact absurd (empty ▸ ahead) (Set.notMem_empty j)

/-- The first step ahead at a smaller level runs in a caller. -/
theorem runsBelow_of_isLeast (built : build t = .ok ix) (here : ix.frameAt i = .ok (.ok f))
    (first : IsLeast (ix.shallowerAhead i) exit) :
    ∃ g, ix.frameAt exit = .ok (.ok g) ∧ ix.RunsBelow g i := by
  obtain ⟨ahead, g, there, shallower⟩ := (mem_shallowerAhead_iff here).mp first.1
  obtain ⟨stack, known, -⟩ := stackAt_of_frameAt built here
  refine ⟨g, there, f, stack, here, known, ?_, ?_⟩
  · apply mem_stackAt_of_least built there _ known
    intro k lower upper
    obtain ⟨h, found⟩ := frameAt_of_earlier built (show k ≤ exit by omega) there
    refine ⟨h, found, ?_⟩
    by_contra deeper
    by_cases start : k = i
    · subst start
      obtain rfl : h = f := answer_unique found here
      omega
    · have between : k ∈ ix.shallowerAhead i :=
        (mem_shallowerAhead_iff here).mpr ⟨by omega, h, found, by omega⟩
      have last : k = exit := Nat.le_antisymm (by omega) (first.2 between)
      subst last
      obtain rfl : h = g := answer_unique found there
      exact deeper (Nat.le_refl _)
  · rintro rfl
    exact Nat.lt_irrefl _ shallower

end FrameIndex

namespace Navigator

variable {t : Trace} {ix : FrameIndex} {n : Navigator} {f : CallFrame}

/-- Jumping out leads to the exit of the frame. -/
theorem target_jumpOut (built : FrameIndex.build t = .ok ix) (same : n.length = t.length)
    (here : ix.frameAt n.cursor = .ok (.ok f)) : n.target ix .jumpOut = .ok f.exitedAt := by
  have led : n.destination ix .jumpOut = .ok f.exitedAt := by
    simp only [destination, out, here, bind, Except.bind, pure, Except.pure]
    split
    · next outermost =>
      rw [FrameIndex.exitedAt_of_outermost built here (Option.isNone_iff_eq_none.mp outermost)]
    · cases left : f.exitedAt with
      | none => rfl
      | some exit =>
        obtain ⟨mem, -⟩ := FrameIndex.contains_of_frameAt built here
        have nested := FrameIndex.nested_of_frameAt built here
        have inside : exit < n.length := by
          rw [same]
          exact (nested.exited f mem exit left).2.1
        simp [inside]
  apply target_eq_of_elsewhere led
  intro step left
  have first := ((FrameIndex.exitedAt_iff built here).1 step).mp left
  have ahead := first.1.1
  exact Nat.ne_of_gt ahead

/-- From a cursor in the frame `f`, jumping out is a search ahead for a smaller level. -/
structure JumpsOut (n : Navigator) (t : Trace) (ix : FrameIndex) (f : CallFrame) : Prop where
  leads : ∀ step, n.target ix .jumpOut = .ok (some step) ↔
    IsLeast (ix.shallowerAhead n.cursor) step
  stays : n.target ix .jumpOut = .ok none ↔ ix.shallowerAhead n.cursor = ∅
  /-- It leads nowhere from the outermost frame, and from a frame that is not left, or is left
  only where the trace is malformed. -/
  outermost : f.parent = none → n.target ix .jumpOut = .ok none
  unleft : n.target ix .jumpOut = .ok none ↔ ix.StaysOpen t n.cursor
  /-- The cursor runs in a call that the frame of the target made, itself or through others. -/
  caller : ∀ step, n.target ix .jumpOut = .ok (some step) →
    ∃ g, ix.frameAt step = .ok (.ok g) ∧ ix.RunsBelow g n.cursor

theorem jumpsOut (built : FrameIndex.build t = .ok ix) (same : n.length = t.length)
    (here : ix.frameAt n.cursor = .ok (.ok f)) : n.JumpsOut t ix f := by
  have led := target_jumpOut built same here
  obtain ⟨exits, unleft⟩ := FrameIndex.exitedAt_iff built here
  have leads : ∀ step, n.target ix .jumpOut = .ok (some step) ↔
      IsLeast (ix.shallowerAhead n.cursor) step := by
    intro step
    rw [led, Except.ok.injEq, exits]
  have stays : n.target ix .jumpOut = .ok none ↔ ix.shallowerAhead n.cursor = ∅ := by
    rw [led, Except.ok.injEq, unleft]
  exact {
    leads := leads
    stays := stays
    outermost := by
      intro outermost
      rw [led, FrameIndex.exitedAt_of_outermost built here outermost]
    unleft := stays.trans (FrameIndex.staysOpen_iff built here).symm
    caller := by
      intro step target
      exact FrameIndex.runsBelow_of_isLeast built here ((leads step).mp target) }

/-- Jumping out leads where a search ahead for a smaller level does, into a caller, and
nowhere if the frame of the cursor is not known. -/
theorem jumping_out_finds_caller (built : FrameIndex.build t = .ok ix)
    (same : n.length = t.length) :
    (∀ f, ix.frameAt n.cursor = .ok (.ok f) → n.JumpsOut t ix f) ∧
    ∀ e, ix.frameAt n.cursor = .ok (.error e) → n.target ix .jumpOut = .ok none := by
  constructor
  · intro f here
    exact jumpsOut built same here
  · intro e unknown
    have led : n.destination ix .jumpOut = .ok none := by
      simp only [destination, out, unknown, bind, Except.bind, pure, Except.pure]
    apply target_eq_of_elsewhere led
    intro step found
    cases found

/-- Out of three calls that end together, and out of init code that is not left before the
trace is malformed. -/
theorem nestedCreations_jumpsOut :
    ∃ ix, FrameIndex.build FrameIndex.nestedCreations = .ok ix ∧
      (⟨3, 9⟩ : Navigator).length = FrameIndex.nestedCreations.length ∧
      (⟨7, 9⟩ : Navigator).length = FrameIndex.nestedCreations.length ∧
      (∃ f g, ix.frameAt 3 = .ok (.ok f) ∧ (⟨3, 9⟩ : Navigator).JumpsOut
          FrameIndex.nestedCreations ix f ∧
        IsLeast (ix.shallowerAhead 3) 4 ∧ ix.frameAt 4 = .ok (.ok g) ∧ ix.RunsBelow g 3) ∧
      ∃ f, ix.frameAt 7 = .ok (.ok f) ∧ (⟨7, 9⟩ : Navigator).JumpsOut
          FrameIndex.nestedCreations ix f ∧
        ix.StaysOpen FrameIndex.nestedCreations 7 := by
  have nonempty : FrameIndex.nestedCreations.steps ≠ [] := by decide
  have bounded : ∀ s ∈ FrameIndex.nestedCreations.steps, s.depth + 1 < wordLimit := by decide
  obtain ⟨s, malformed, built, -⟩ := FrameIndex.exists_build nonempty bounded
  have same : (⟨3, 9⟩ : Navigator).length = FrameIndex.nestedCreations.length := by decide
  have same' : (⟨7, 9⟩ : Navigator).length = FrameIndex.nestedCreations.length := by decide
  have inner : (FrameIndex.build FrameIndex.nestedCreations).bind (·.frameAt 3) =
      .ok (.ok ⟨⟨3⟩, some ⟨2⟩, 3, .contract (.ofLast 0xbb), 3, some 4⟩) := by decide
  have creation : (FrameIndex.build FrameIndex.nestedCreations).bind (·.frameAt 7) =
      .ok (.ok ⟨⟨5⟩, some ⟨0⟩, 1, .creation (.step 6), 7, none⟩) := by decide
  have out : (FrameIndex.build FrameIndex.nestedCreations).bind
      ((⟨3, 9⟩ : Navigator).target · .jumpOut) = .ok (some 4) := by decide
  have stays : (FrameIndex.build FrameIndex.nestedCreations).bind
      ((⟨7, 9⟩ : Navigator).target · .jumpOut) = .ok none := by decide
  rw [built] at inner creation out stays
  have leaves := (jumping_out_finds_caller built same).1 _ inner
  have remains := (jumping_out_finds_caller built same').1 _ creation
  obtain ⟨g, there, below⟩ := leaves.caller 4 out
  exact ⟨_, built, same, same',
    ⟨_, g, inner, leaves, (leaves.leads 4).mp out, there, below⟩,
    _, creation, remains, remains.unleft.mp stays⟩

end Navigator

end TraceDebug

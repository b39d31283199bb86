import TraceDebug.Proofs.Frame.Stacks
import TraceDebug.Proofs.Navigator
import TraceDebug.Proofs.Nearest

/-!
# Stepping over calls

Stepping over compares levels only. A step at the level of the cursor or above it, with
none such between, runs in the frame of the cursor or in one of its callers, and the
steps between run in calls made from that frame.
-/

namespace TraceDebug

namespace FrameIndex

/-- The step runs in a frame that is properly below `f`. -/
def RunsBelow (ix : FrameIndex) (f : CallFrame) (step : Nat) : Prop :=
  ∃ g stack, ix.frameAt step = .ok (.ok g) ∧ ix.stackAt step = .ok (.ok stack) ∧ f ∈ stack ∧ f ≠ g

/-- All steps strictly between two steps run in frames deeper than `f`. -/
def DeeperBetween (ix : FrameIndex) (f : CallFrame) (i j : Nat) : Prop :=
  ∀ k, min i j < k → k < max i j → ∃ g, ix.frameAt k = .ok (.ok g) ∧ f.depth < g.depth

variable {t : Trace} {ix : FrameIndex} {cursor step stop : Nat} {f g : CallFrame}

theorem runsBelow_of_deeper (built : build t = .ok ix) (here : ix.frameAt cursor = .ok (.ok f))
    (between : ix.DeeperBetween f cursor step) (there : ix.frameAt step = .ok (.ok g))
    (deeper : f.depth < g.depth) : ix.RunsBelow f step := by
  obtain ⟨stack, known, -⟩ := stackAt_of_frameAt built there
  refine ⟨g, stack, there, known, mem_stackAt_of_least built here ?_ known, ?_⟩
  · intro k lower upper
    by_cases first : k = cursor
    · exact ⟨f, first ▸ here, Nat.le_refl _⟩
    · by_cases last : k = step
      · exact ⟨g, last ▸ there, Nat.le_of_lt deeper⟩
      · obtain ⟨h, found, lt⟩ := between k (by omega) (by omega)
        exact ⟨h, found, Nat.le_of_lt lt⟩
  · rintro rfl
    exact Nat.lt_irrefl _ deeper

/-- The nearest step that is no deeper runs in a frame of the stack, not in a sibling. -/
theorem mem_stack_of_nearest (built : build t = .ok ix) (here : ix.frameAt cursor = .ok (.ok f))
    (between : ix.DeeperBetween f cursor step) (there : ix.frameAt step = .ok (.ok g))
    (shallow : g.depth ≤ f.depth) {stack : List CallFrame}
    (known : ix.stackAt cursor = .ok (.ok stack)) : g ∈ stack := by
  apply mem_stackAt_of_least built there _ known
  intro k lower upper
  by_cases first : k = cursor
  · exact ⟨f, first ▸ here, shallow⟩
  · by_cases last : k = step
    · exact ⟨g, last ▸ there, Nat.le_refl _⟩
    · obtain ⟨h, found, lt⟩ := between k (by omega) (by omega)
      exact ⟨h, found, Nat.le_trans shallow (Nat.le_of_lt lt)⟩

/-- What lies between runs in calls made from the frame. -/
theorem DeeperBetween.runsBelow (built : build t = .ok ix)
    (here : ix.frameAt cursor = .ok (.ok f)) (between : ix.DeeperBetween f cursor stop)
    (lower : min cursor stop < step) (upper : step < max cursor stop) : ix.RunsBelow f step := by
  obtain ⟨g, there, deeper⟩ := between step lower upper
  apply runsBelow_of_deeper built here _ there deeper
  intro k lower' upper'
  exact between k (by omega) (by omega)

end FrameIndex

namespace Navigator

section
variable {p : Nat → Checked Bool}

theorem scanForward_holds {start count found : Nat}
    (h : scanForward p start count = .ok (some found)) : p found = .ok true := by
  induction count generalizing start with
  | zero => cases h
  | succ count ih =>
    obtain ⟨holds, first, h⟩ := Checked.bind_eq_ok.mp h
    cases holds with
    | true =>
      cases h
      exact first
    | false => exact ih h

theorem scanForward_passed {start count i : Nat} {found : Option Nat}
    (h : scanForward p start count = .ok found) (lower : start ≤ i) (upper : i < start + count)
    (passed : ∀ step, found = some step → i < step) : p i = .ok false := by
  induction count generalizing start with
  | zero => omega
  | succ count ih =>
    obtain ⟨holds, first, h⟩ := Checked.bind_eq_ok.mp h
    cases holds with
    | true =>
      cases h
      exact absurd (passed start rfl) (Nat.not_lt.mpr lower)
    | false =>
      by_cases here : start = i
      · exact here ▸ first
      · exact ih h (by omega) (by omega)

theorem scanBack_holds {stop found : Nat} (h : scanBack p stop = .ok (some found)) :
    p found = .ok true := by
  induction stop with
  | zero => cases h
  | succ stop ih =>
    obtain ⟨holds, last, h⟩ := Checked.bind_eq_ok.mp h
    cases holds with
    | true =>
      cases h
      exact last
    | false => exact ih h

theorem scanBack_passed {stop i : Nat} {found : Option Nat} (h : scanBack p stop = .ok found)
    (upper : i < stop) (passed : ∀ step, found = some step → step < i) : p i = .ok false := by
  induction stop with
  | zero => omega
  | succ stop ih =>
    obtain ⟨holds, last, h⟩ := Checked.bind_eq_ok.mp h
    cases holds with
    | true =>
      cases h
      exact absurd (passed stop rfl) (Nat.not_lt.mpr (Nat.le_of_lt_succ upper))
    | false =>
      by_cases here : stop = i
      · exact here ▸ last
      · exact ih h (by omega)

end

variable {t : Trace} {ix : FrameIndex} {n : Navigator} {f : CallFrame} {stack : List CallFrame}

theorem reaches_eq_true_iff {depth i : Nat} :
    reaches ix depth i = .ok true ↔ (∃ e, ix.frameAt i = .ok (.error e)) ∨
      ∃ g, ix.frameAt i = .ok (.ok g) ∧ g.depth ≤ depth := by
  unfold reaches FrameIndex.depthAt
  cases ix.frameAt i with
  | error fault => simp [Except.map]
  | ok answer => cases answer <;> simp [Except.map]

theorem reaches_eq_false_iff {depth i : Nat} :
    reaches ix depth i = .ok false ↔ ∃ g, ix.frameAt i = .ok (.ok g) ∧ depth < g.depth := by
  unfold reaches FrameIndex.depthAt
  cases ix.frameAt i with
  | error fault => simp [Except.map]
  | ok answer => cases answer <;> simp [Except.map]

/-- The steps ahead of the cursor that have no known frame or run in one of the given. -/
def ahead (n : Navigator) (ix : FrameIndex) (stack : List CallFrame) : Set Nat :=
  {i | n.cursor < i ∧ i < n.length ∧
    ((∃ e, ix.frameAt i = .ok (.error e)) ∨ ∃ g ∈ stack, ix.frameAt i = .ok (.ok g))}

/-- The steps behind the cursor that run in one of the given frames. -/
def behind (n : Navigator) (ix : FrameIndex) (stack : List CallFrame) : Set Nat :=
  {i | i < n.cursor ∧ ∃ g ∈ stack, ix.frameAt i = .ok (.ok g)}

theorem reaches_of_mem (built : FrameIndex.build t = .ok ix)
    (here : ix.frameAt n.cursor = .ok (.ok f)) (known : ix.stackAt n.cursor = .ok (.ok stack))
    {i : Nat} {g : CallFrame} (mem : g ∈ stack) (found : ix.frameAt i = .ok (.ok g)) :
    reaches ix f.depth i = .ok true := by
  have shallow := FrameIndex.depth_le_of_mem_stackAt built here known mem
  exact reaches_eq_true_iff.mpr (.inr ⟨g, found, shallow⟩)

theorem reaches_of_mem_ahead (built : FrameIndex.build t = .ok ix)
    (here : ix.frameAt n.cursor = .ok (.ok f)) (known : ix.stackAt n.cursor = .ok (.ok stack))
    {i : Nat} (mem : i ∈ n.ahead ix stack) : reaches ix f.depth i = .ok true := by
  rcases mem.2.2 with unknown | ⟨g, mem, found⟩
  · exact reaches_eq_true_iff.mpr (.inl unknown)
  · exact reaches_of_mem built here known mem found

theorem target_eq_of_elsewhere {m : Movement} {found : Option Nat}
    (led : n.destination ix m = .ok found)
    (elsewhere : ∀ step, found = some step → step ≠ n.cursor) : n.target ix m = .ok found := by
  rw [target, led]
  cases found with
  | none => rfl
  | some step => simp [Except.map, elsewhere step rfl]

theorem overForward_eq_scan (here : ix.frameAt n.cursor = .ok (.ok f))
    (addressable : n.cursor + 1 < wordLimit) :
    n.overForward ix =
      scanForward (reaches ix f.depth) (n.cursor + 1) (n.length - (n.cursor + 1)) := by
  have depth : ix.depthAt n.cursor = .ok (.ok f.depth) := by
    rw [FrameIndex.depthAt, here]
    rfl
  have start : Checked.add n.cursor 1 = .ok (n.cursor + 1) :=
    Checked.add_eq_ok.mpr ⟨addressable, rfl⟩
  simp only [overForward, depth, start, bind, Except.bind]

theorem overBack_eq_scan (here : ix.frameAt n.cursor = .ok (.ok f)) :
    n.overBack ix = scanBack (reaches ix f.depth) n.cursor := by
  have depth : ix.depthAt n.cursor = .ok (.ok f.depth) := by
    rw [FrameIndex.depthAt, here]
    rfl
  simp only [overBack, depth, bind, Except.bind]

/-- Stepping over forward searches ahead for a level that is no greater. -/
theorem stepOverForward_scans (built : FrameIndex.build t = .ok ix)
    (here : ix.frameAt n.cursor = .ok (.ok f)) (addressable : n.cursor + 1 < wordLimit) :
    ∃ found, n.target ix .stepOverForward = .ok found ∧
      scanForward (reaches ix f.depth) (n.cursor + 1) (n.length - (n.cursor + 1)) = .ok found := by
  obtain ⟨found, scanned⟩ := exists_scanForward (exists_reaches built f.depth)
    (n.cursor + 1) (n.length - (n.cursor + 1))
  have led : n.destination ix .stepOverForward = .ok found :=
    (overForward_eq_scan here addressable).trans scanned
  refine ⟨found, target_eq_of_elsewhere led ?_, scanned⟩
  rintro step rfl
  exact Nat.ne_of_gt (scanForward_inside scanned).1

theorem stepOverBack_scans (built : FrameIndex.build t = .ok ix)
    (here : ix.frameAt n.cursor = .ok (.ok f)) :
    ∃ found, n.target ix .stepOverBack = .ok found ∧
      scanBack (reaches ix f.depth) n.cursor = .ok found := by
  obtain ⟨found, scanned⟩ := exists_scanBack (exists_reaches built f.depth) n.cursor
  have led : n.destination ix .stepOverBack = .ok found := (overBack_eq_scan here).trans scanned
  refine ⟨found, target_eq_of_elsewhere led ?_, scanned⟩
  rintro step rfl
  exact Nat.ne_of_lt (scanBack_below scanned)

variable {found : Option Nat}

theorem deeperBetween_of_scanForward
    (scanned : scanForward (reaches ix f.depth) (n.cursor + 1) (n.length - (n.cursor + 1)) =
      .ok found) {stop : Nat} (after : n.cursor < stop) (inside : stop ≤ n.length)
    (passed : ∀ step, found = some step → stop ≤ step) : ix.DeeperBetween f n.cursor stop := by
  intro k lower upper
  apply reaches_eq_false_iff.mp
  apply scanForward_passed scanned (by omega) (by omega)
  intro step same
  have last := passed step same
  omega

theorem deeperBetween_of_scanBack
    (scanned : scanBack (reaches ix f.depth) n.cursor = .ok found) {stop : Nat}
    (before : stop < n.cursor) (passed : ∀ step, found = some step → step ≤ stop) :
    ix.DeeperBetween f n.cursor stop := by
  intro k lower upper
  apply reaches_eq_false_iff.mp
  apply scanBack_passed scanned (by omega)
  intro step same
  have last := passed step same
  omega

theorem deeperBetween_of_forward (built : FrameIndex.build t = .ok ix)
    (here : ix.frameAt n.cursor = .ok (.ok f)) (addressable : n.cursor + 1 < wordLimit) {step : Nat}
    (led : n.target ix .stepOverForward = .ok (some step)) : ix.DeeperBetween f n.cursor step := by
  obtain ⟨found, led', scanned⟩ := stepOverForward_scans built here addressable
  obtain rfl : found = some step := Except.ok.inj (led'.symm.trans led)
  obtain ⟨after, inside⟩ := scanForward_inside scanned
  apply deeperBetween_of_scanForward scanned after (by omega)
  intro other same
  exact Nat.le_of_eq (Option.some.inj same)

theorem deeperBetween_of_back (built : FrameIndex.build t = .ok ix)
    (here : ix.frameAt n.cursor = .ok (.ok f)) {step : Nat}
    (led : n.target ix .stepOverBack = .ok (some step)) : ix.DeeperBetween f n.cursor step := by
  obtain ⟨found, led', scanned⟩ := stepOverBack_scans built here
  obtain rfl : found = some step := Except.ok.inj (led'.symm.trans led)
  apply deeperBetween_of_scanBack scanned (scanBack_below scanned)
  intro other same
  exact Nat.le_of_eq (Option.some.inj same).symm

/-- Stepping over forward leads to the first step ahead, or nowhere. -/
theorem stepOverForward_iff (built : FrameIndex.build t = .ok ix)
    (here : ix.frameAt n.cursor = .ok (.ok f)) (known : ix.stackAt n.cursor = .ok (.ok stack))
    (addressable : n.cursor + 1 < wordLimit) :
    (∀ step, n.target ix .stepOverForward = .ok (some step) ↔ IsLeast (n.ahead ix stack) step) ∧
      (n.target ix .stepOverForward = .ok none ↔ n.ahead ix stack = ∅) := by
  obtain ⟨found, led, scanned⟩ := stepOverForward_scans built here addressable
  simp only [led, Except.ok.injEq]
  apply found_iff_isLeast
  · rintro step rfl
    obtain ⟨lower, upper⟩ := scanForward_inside scanned
    refine ⟨lower, by omega, ?_⟩
    rcases reaches_eq_true_iff.mp (scanForward_holds scanned) with unknown | ⟨g, there, shallow⟩
    · exact .inl unknown
    · have between := deeperBetween_of_forward built here addressable led
      exact .inr ⟨g, FrameIndex.mem_stack_of_nearest built here between there shallow known, there⟩
  · intro i mem
    by_contra missed
    have deeper : reaches ix f.depth i = .ok false := by
      apply scanForward_passed scanned mem.1 (by have := mem.2.1; omega)
      intro step same
      exact Nat.lt_of_not_le fun le => missed ⟨step, same, le⟩
    cases (reaches_of_mem_ahead built here known mem).symm.trans deeper

/-- Stepping over back leads to the last step behind, or nowhere. -/
theorem stepOverBack_iff (built : FrameIndex.build t = .ok ix)
    (here : ix.frameAt n.cursor = .ok (.ok f)) (known : ix.stackAt n.cursor = .ok (.ok stack)) :
    (∀ step, n.target ix .stepOverBack = .ok (some step) ↔
      IsGreatest (n.behind ix stack) step) ∧
      (n.target ix .stepOverBack = .ok none ↔ n.behind ix stack = ∅) := by
  obtain ⟨found, led, scanned⟩ := stepOverBack_scans built here
  simp only [led, Except.ok.injEq]
  apply found_iff_isGreatest
  · rintro step rfl
    have before := scanBack_below scanned
    obtain ⟨g, there⟩ := FrameIndex.frameAt_of_earlier built (Nat.le_of_lt before) here
    rcases reaches_eq_true_iff.mp (scanBack_holds scanned) with ⟨e, unknown⟩ | ⟨g', there', shallow⟩
    · cases unknown.symm.trans there
    · have between := deeperBetween_of_back built here led
      have stacked := FrameIndex.mem_stack_of_nearest built here between there' shallow known
      exact ⟨before, g', stacked, there'⟩
  · rintro i ⟨before, g, mem, there⟩
    by_contra missed
    have deeper : reaches ix f.depth i = .ok false := by
      apply scanBack_passed scanned before
      intro step same
      exact Nat.lt_of_not_le fun le => missed ⟨step, same, le⟩
    cases (reaches_of_mem built here known mem there).symm.trans deeper

/-- The first step runs in the outermost frame, which every stack has. -/
theorem behind_eq_empty_iff (built : FrameIndex.build t = .ok ix)
    (here : ix.frameAt n.cursor = .ok (.ok f)) (known : ix.stackAt n.cursor = .ok (.ok stack)) :
    n.behind ix stack = ∅ ↔ n.cursor = 0 := by
  constructor
  · intro empty
    by_contra later
    obtain ⟨g, first⟩ := FrameIndex.frameAt_of_earlier built (Nat.zero_le n.cursor) here
    have stacked : g ∈ stack := by
      apply FrameIndex.mem_stackAt_of_least built first _ known
      intro k lower upper
      obtain ⟨h, found⟩ := FrameIndex.frameAt_of_earlier built (show k ≤ n.cursor by omega) here
      refine ⟨h, found, ?_⟩
      rw [FrameIndex.depth_of_frameAt_zero built first]
      exact Nat.zero_le _
    have behind : 0 ∈ n.behind ix stack := ⟨Nat.pos_of_ne_zero later, g, stacked, first⟩
    exact absurd (empty ▸ behind) (Set.notMem_empty 0)
  · intro first
    apply Set.eq_empty_of_forall_notMem
    intro i mem
    have before : i < n.cursor := mem.1
    omega

/-- From a cursor in the frame `f`, stepping over passes the calls made from `f` and stops at
the first step that is in no such call. -/
structure StepsOver (n : Navigator) (ix : FrameIndex) (f : CallFrame) (stack : List CallFrame) :
    Prop where
  forward : ∀ step, n.target ix .stepOverForward = .ok (some step) ↔
    IsLeast (n.ahead ix stack) step
  forwardStays : n.target ix .stepOverForward = .ok none ↔ n.ahead ix stack = ∅
  back : ∀ step, n.target ix .stepOverBack = .ok (some step) ↔ IsGreatest (n.behind ix stack) step
  backStays : n.target ix .stepOverBack = .ok none ↔ n.cursor = 0
  /-- All that is passed runs below `f`, also when the movement leads nowhere. -/
  skippedAhead : ∀ i, n.cursor < i → i < n.length →
    (∀ step, n.target ix .stepOverForward = .ok (some step) → i < step) → ix.RunsBelow f i
  skippedBehind : ∀ step, n.target ix .stepOverBack = .ok (some step) →
    ∀ i, step < i → i < n.cursor → ix.RunsBelow f i

theorem stepsOver (built : FrameIndex.build t = .ok ix) (here : ix.frameAt n.cursor = .ok (.ok f))
    (known : ix.stackAt n.cursor = .ok (.ok stack)) (addressable : n.cursor + 1 < wordLimit) :
    n.StepsOver ix f stack := by
  obtain ⟨forward, forwardStays⟩ := stepOverForward_iff built here known addressable
  obtain ⟨back, backStays⟩ := stepOverBack_iff built here known
  exact {
    forward := forward
    forwardStays := forwardStays
    back := back
    backStays := backStays.trans (behind_eq_empty_iff built here known)
    skippedAhead := by
      intro i lower upper passed
      obtain ⟨found, led, scanned⟩ := stepOverForward_scans built here addressable
      have between : ix.DeeperBetween f n.cursor (i + 1) := by
        apply deeperBetween_of_scanForward scanned (Nat.lt_succ_of_lt lower) upper
        rintro step rfl
        exact passed step led
      exact between.runsBelow built here (by omega) (by omega)
    skippedBehind := by
      intro step led i lower upper
      exact (deeperBetween_of_back built here led).runsBelow built here (by omega) (by omega) }

/-- Stepping over skips exactly the nested calls, and where the frame of the cursor is not
known, stepping over is stepping. -/
theorem stepping_over_skips_calls (built : FrameIndex.build t = .ok ix)
    (addressable : t.length < wordLimit) (same : n.length = t.length) :
    (∀ f, ix.frameAt n.cursor = .ok (.ok f) →
      ∃ stack, ix.stackAt n.cursor = .ok (.ok stack) ∧ n.StepsOver ix f stack) ∧
    ∀ e, ix.frameAt n.cursor = .ok (.error e) →
      n.target ix .stepOverForward = n.target ix .next ∧
        n.target ix .stepOverBack = n.target ix .previous := by
  constructor
  · intro f here
    obtain ⟨stack, known, -⟩ := FrameIndex.stackAt_of_frameAt built here
    have inside : n.cursor < n.length := by
      rw [same, ← FrameIndex.length_of_build built]
      exact (FrameIndex.replayed_of_frameAt here).1
    exact ⟨stack, known, stepsOver built here known (by omega)⟩
  · intro e unknown
    have level : ix.depthAt n.cursor = .ok (.error e) := by
      rw [FrameIndex.depthAt, unknown]
      rfl
    have forward : n.overForward ix = .ok n.nextStep := by
      simp only [overForward, level, bind, Except.bind, pure, Except.pure]
    have back : n.overBack ix = .ok n.previousStep := by
      simp only [overBack, level, bind, Except.bind, pure, Except.pure]
    exact ⟨by rw [target, destination, forward]; rfl, by rw [target, destination, back]; rfl⟩

/-- Back over three calls that end together, and ahead over the init code of a creation. -/
theorem nestedCreations_stepsOver :
    ∃ ix, FrameIndex.build FrameIndex.nestedCreations = .ok ix ∧
      FrameIndex.nestedCreations.length < wordLimit ∧
      (⟨4, 9⟩ : Navigator).length = FrameIndex.nestedCreations.length ∧
      ∃ f stack, ix.frameAt 4 = .ok (.ok f) ∧ ix.stackAt 4 = .ok (.ok stack) ∧
        (⟨4, 9⟩ : Navigator).StepsOver ix f stack ∧
        IsLeast ((⟨4, 9⟩ : Navigator).ahead ix stack) 6 ∧
        IsGreatest ((⟨4, 9⟩ : Navigator).behind ix stack) 0 ∧ ix.RunsBelow f 3 := by
  have nonempty : FrameIndex.nestedCreations.steps ≠ [] := by decide
  have bounded : ∀ s ∈ FrameIndex.nestedCreations.steps, s.depth + 1 < wordLimit := by decide
  obtain ⟨s, malformed, built, -⟩ := FrameIndex.exists_build nonempty bounded
  have addressable : FrameIndex.nestedCreations.length < wordLimit := by decide
  have same : (⟨4, 9⟩ : Navigator).length = FrameIndex.nestedCreations.length := by decide
  have here : (FrameIndex.build FrameIndex.nestedCreations).bind (·.frameAt 4) =
      .ok (.ok ⟨⟨0⟩, none, 0, .contract (.ofLast 0xaa), 0, none⟩) := by decide
  have forward : (FrameIndex.build FrameIndex.nestedCreations).bind
      ((⟨4, 9⟩ : Navigator).target · .stepOverForward) = .ok (some 6) := by decide
  have back : (FrameIndex.build FrameIndex.nestedCreations).bind
      ((⟨4, 9⟩ : Navigator).target · .stepOverBack) = .ok (some 0) := by decide
  rw [built] at here forward back
  obtain ⟨stack, known, passes⟩ := (stepping_over_skips_calls built addressable same).1 _ here
  exact ⟨_, built, addressable, same, _, stack, here, known, passes, (passes.forward 6).mp forward,
    (passes.back 0).mp back, passes.skippedBehind 0 back 3 (by decide) (by decide)⟩

end Navigator

end TraceDebug

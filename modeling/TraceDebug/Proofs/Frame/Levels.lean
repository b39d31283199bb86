import Mathlib.Data.List.Basic
import TraceDebug.Proofs.Frame.Agreement
import TraceDebug.Proofs.Frame.Nesting

/-!
# Only changes of level matter

A trace may be recorded at any level: raising all depth markers by one number changes neither
the call stacks nor the frames. There is one exception. Before it looks which way the level
changes, the replay computes the level above, and where there is no word for it the replay
faults. So a trace cannot be replayed if it reaches the last level and leaves it again.
-/

namespace TraceDebug

def Step.raised (k : Nat) (s : Step) : Step := { s with depth := s.depth + k }

@[simp] theorem Step.depth_raised (k : Nat) (s : Step) : (s.raised k).depth = s.depth + k := rfl

@[simp] theorem Step.opened?_raised (k : Nat) (s : Step) (caller : Nat) :
    (s.raised k).opened? caller = s.opened? caller := rfl

namespace Trace

/-- The same trace, recorded `k` levels higher. -/
def raised (k : Nat) (t : Trace) : Trace := { t with steps := t.steps.map (Step.raised k) }

/-- The step has a call stack and no word for the level above its own, and the next step is on
another level. -/
def LeavesLastLevel (t : Trace) (i : Nat) : Prop :=
  (∃ stack, t.callStack? i = some stack) ∧ ∃ before after, t.steps[i]? = some before ∧
    t.steps[i + 1]? = some after ∧ after.depth ≠ before.depth ∧ wordLimit ≤ before.depth + 1

end Trace

theorem Step.nextStack?_raised (k : Nat) (before after : Step) (caller : Nat)
    (stack : List ExecutingAddress) :
    (before.raised k).nextStack? (after.raised k) caller stack =
      before.nextStack? after caller stack := by
  simp only [nextStack?, depth_raised, opened?_raised, Nat.add_right_comm _ k 1,
    Nat.add_right_cancel_iff, Nat.add_sub_add_right]

theorem Trace.step?_raised (k : Nat) (t : Trace) (i : Nat) :
    (t.raised k).step? i = (t.step? i).map (Step.raised k) :=
  List.getElem?_map

theorem Trace.callStack?_raised (t : Trace) (k i : Nat) :
    (t.raised k).callStack? i = t.callStack? i := by
  induction i with
  | zero => simp [callStack?, raised, isEmpty]
  | succ i ih =>
    rw [callStack?, callStack?, ih, step?_raised, step?_raised]
    cases t.step? i with
    | none => rfl
    | some before =>
      cases t.step? (i + 1) with
      | none => rfl
      | some after => simp [Step.nextStack?_raised]

theorem Trace.callStack?_eq_none_of_le {t : Trace} {i j : Nat} (h : t.callStack? i = none)
    (hij : i ≤ j) : t.callStack? j = none := by
  induction hij with
  | refl => exact h
  | step _ ih => simp only [callStack?, ih, Option.bind_eq_bind, Option.bind_none]

theorem depthChange_eq_error_iff (caller : Nat) {before after : Step} {fault : Fault} :
    depthChange caller before after = .error fault ↔
      fault = .sumOverflow ∧ after.depth ≠ before.depth ∧ wordLimit ≤ before.depth + 1 := by
  by_cases same : after.depth = before.depth
  · simp [depthChange, same, pure, Except.pure]
  · by_cases word : before.depth + 1 < wordLimit
    · obtain ⟨change, computed⟩ := exists_depthChange caller after word
      rw [computed]
      apply iff_of_false
      · intro faulted
        cases faulted
      · rintro ⟨-, -, last⟩
        exact Nat.not_le.mpr word last
    · have overflow : Checked.add before.depth 1 = .error .sumOverflow := if_neg word
      simp only [depthChange, same, overflow, bind, Except.bind, if_false, Except.error.injEq]
      constructor
      · rintro rfl
        exact ⟨rfl, same, Nat.le_of_not_lt word⟩
      · rintro ⟨rfl, -⟩
        rfl

namespace Replay

theorem advance_eq_error_iff {r : Replay} {step : Nat} {before after : Step} {fault : Fault} :
    r.advance step before after = .error fault ↔
      fault = .sumOverflow ∧ after.depth ≠ before.depth ∧ wordLimit ≤ before.depth + 1 := by
  rw [← depthChange_eq_error_iff (step - 1)]
  unfold advance
  cases depthChange (step - 1) before after with
  | error fault => simp [bind, Except.bind]
  | ok change => cases change <;> simp [bind, Except.bind, pure, Except.pure]

/-- A replay that faults has reached a step that leaves the last level. -/
theorem leavesLastLevel_of_run {t : Trace} {rest : List Step} {i : Nat} {r : Replay}
    {before : Step} {fault : Fault} (reached : Reaches t i r)
    (split : t.steps.drop i = before :: rest) (faulted : r.run (i + 1) before rest = .error fault) :
    fault = .sumOverflow ∧ ∃ j, t.LeavesLastLevel j := by
  induction rest generalizing i r before with
  | nil => cases faulted
  | cons after rest ih =>
    obtain ⟨hb, tail⟩ := step_of_drop split
    have ha := (step_of_drop tail).1
    rw [run] at faulted
    cases advanced : r.advance (i + 1) before after with
    | error cause =>
      rw [advanced] at faulted
      cases faulted
      obtain ⟨rfl, leaves⟩ := advance_eq_error_iff.mp advanced
      obtain ⟨stack, current, -⟩ := reached.callStack?
      exact ⟨rfl, i, ⟨stack, current⟩, before, after, hb, ha, leaves⟩
    | ok result =>
      rw [advanced] at faulted
      cases result with
      | error cause => cases faulted
      | ok next => exact ih (.next reached hb ha advanced) tail faulted

/-- Up to its end a replay has computed every change of level. -/
theorem Ends.advanced {t : Trace} {s : Replay} {malformed : Option Malformation}
    (ends : Ends t s malformed) {i : Nat} (known : ∃ stack, t.callStack? i = some stack)
    {before after : Step} (hb : t.steps[i]? = some before) (ha : t.steps[i + 1]? = some after) :
    ∃ r result, Replay.advance r (i + 1) before after = .ok result := by
  have inside : i + 1 < t.steps.length := (List.getElem?_eq_some_iff.mp ha).1
  by_cases next : ∀ m, malformed = some m → i + 1 < m.step
  · obtain ⟨s, reached, -⟩ := ends.passed inside next
    cases reached with
    | next _ hb' ha' advanced =>
      cases hb.symm.trans hb'
      cases ha.symm.trans ha'
      exact ⟨_, _, advanced⟩
  · cases malformed with
    | none => exact absurd nofun next
    | some m =>
      obtain ⟨stack, current⟩ := known
      have before' : i < m.step := by
        apply Nat.lt_of_not_le
        intro behind
        cases (Trace.callStack?_eq_none_of_le ends.callStack?_eq_none behind).symm.trans current
      have stopped : m.step ≤ i + 1 := by simpa using next
      obtain ⟨last, b, a, eq, -, hb', ha', stopped⟩ := ends
      obtain rfl : last = i := by omega
      cases hb.symm.trans hb'
      cases ha.symm.trans ha'
      exact ⟨_, _, stopped⟩

end Replay

namespace FrameIndex

/-- The index of a trace cannot be built exactly if a step leaves the last level. -/
theorem build_eq_error_iff {t : Trace} {fault : Fault} :
    build t = .error fault ↔ fault = .sumOverflow ∧ ∃ i, t.LeavesLastLevel i := by
  have faults {cause : Fault} (h : build t = .error cause) :
      cause = .sumOverflow ∧ ∃ i, t.LeavesLastLevel i := by
    cases steps : t.steps with
    | nil =>
      rw [build, steps] at h
      cases h
    | cons first rest =>
      have reached : Replay.Reaches t 0 (.start t.root) := .start (by simp [steps])
      apply Replay.leavesLastLevel_of_run reached steps
      rw [build, steps] at h
      cases ran : (Replay.start t.root).run 1 first rest with
      | error other =>
        simp only [ran] at h
        cases h
        rfl
      | ok result =>
        simp only [ran] at h
        cases h
  refine ⟨faults, ?_⟩
  rintro ⟨rfl, i, known, before, after, hb, ha, leaves⟩
  cases built : build t with
  | error cause =>
    obtain ⟨rfl, -⟩ := faults built
    rfl
  | ok ix =>
    have nonempty : t.steps ≠ [] := List.ne_nil_of_mem (List.mem_of_getElem? hb)
    obtain ⟨s, malformed, -, ends⟩ := ends_of_build nonempty built
    obtain ⟨r, result, advanced⟩ := ends.advanced known hb ha
    cases advanced.symm.trans (Replay.advance_eq_error_iff.mpr ⟨rfl, leaves⟩)

end FrameIndex

/-- What a change of level asks of the frame stack, if it asks for something legal. -/
def Step.change? (before after : Step) (caller : Nat) : Option DepthChange :=
  if after.depth = before.depth then some .stay
  else if after.depth = before.depth + 1 then (before.opened? caller).map .enter
  else if after.depth < before.depth then some (.leave (before.depth - after.depth))
  else none

theorem Step.change?_raised (k : Nat) (before after : Step) (caller : Nat) :
    (before.raised k).change? (after.raised k) caller = before.change? after caller := by
  simp only [change?, depth_raised, opened?_raised, Nat.add_right_comm _ k 1,
    Nat.add_right_cancel_iff, Nat.add_lt_add_iff_right, Nat.add_sub_add_right]

theorem toOption_depthChange {caller : Nat} {before after : Step}
    {change : Except MalformedCause DepthChange}
    (h : depthChange caller before after = .ok change) :
    change.toOption = before.change? after caller := by
  unfold Step.change?
  rcases depthChange_cases h with ⟨same, rfl⟩ | ⟨deeper, rfl⟩ | ⟨returns, returned, positive, rfl⟩ |
    ⟨jump, rfl⟩
  · rw [if_pos same]
    rfl
  · rw [if_neg (by omega), if_pos deeper, ← Replay.toOption_enteredAddress]
    cases enteredAddress caller before <;> rfl
  · rw [if_neg (by omega), if_neg (by omega), if_pos (by omega)]
    have counted : before.depth - after.depth = returns := by omega
    rw [counted]
    rfl
  · rw [if_neg (by omega), if_neg (by omega), if_neg (by omega)]
    rfl

namespace Replay

theorem toOption_of_advance {r : Replay} {step : Nat} {before after : Step}
    {result : Except MalformedCause Replay} (h : r.advance step before after = .ok result) :
    result.toOption =
      (before.change? after (step - 1)).bind fun change => (r.apply step change).toOption := by
  obtain ⟨change, changed, rfl⟩ := advance_eq_ok.mp h
  rw [← toOption_depthChange changed]
  cases change <;> rfl

/-- What a step does to the replay at raised levels it does at the levels as they are. -/
theorem exists_advance_of_raised {r : Replay} {k step : Nat} {before after : Step}
    {raised : Except MalformedCause Replay}
    (h : r.advance step (before.raised k) (after.raised k) = .ok raised) :
    ∃ result, r.advance step before after = .ok result ∧ result.toOption = raised.toOption := by
  cases advanced : r.advance step before after with
  | error fault =>
    obtain ⟨-, leaves, last⟩ := advance_eq_error_iff.mp advanced
    have faulted : r.advance step (before.raised k) (after.raised k) = .error .sumOverflow := by
      apply advance_eq_error_iff.mpr
      refine ⟨rfl, fun same => leaves (Nat.add_right_cancel same), Nat.le_trans last ?_⟩
      exact Nat.succ_le_succ (Nat.le_add_right before.depth k)
    cases faulted.symm.trans h
  | ok result =>
    refine ⟨result, rfl, ?_⟩
    rw [toOption_of_advance advanced, toOption_of_advance h, Step.change?_raised]

theorem exists_run_of_raised {r s : Replay} {k step : Nat} {before : Step} {rest : List Step}
    {malformed : Option Malformation}
    (ran : r.run step (before.raised k) (rest.map (Step.raised k)) = .ok (s, malformed)) :
    ∃ malformed', r.run step before rest = .ok (s, malformed') ∧
      malformed'.map (·.step) = malformed.map (·.step) := by
  induction rest generalizing r step before with
  | nil =>
    cases ran
    exact ⟨none, rfl, rfl⟩
  | cons after rest ih =>
    obtain ⟨raised, advanced, ran⟩ := Checked.bind_eq_ok.mp ran
    obtain ⟨result, advanced', same⟩ := exists_advance_of_raised advanced
    cases raised with
    | error cause =>
      cases ran
      cases result with
      | error cause' =>
        exact ⟨some ⟨step, cause'⟩, Checked.bind_eq_ok.mpr ⟨_, advanced', rfl⟩, rfl⟩
      | ok next => cases same
    | ok next =>
      cases result with
      | error cause' => cases same
      | ok next' =>
        obtain rfl : next' = next := Option.some.inj same
        obtain ⟨malformed', ran', step'⟩ := ih ran
        exact ⟨malformed', Checked.bind_eq_ok.mpr ⟨_, advanced', ran'⟩, step'⟩

end Replay

namespace FrameIndex

/-- The index has the frames of another one and answers as it does. -/
structure AnswersLike (ix other : FrameIndex) : Prop where
  length : ix.length = other.length
  frames : ix.frames = other.frames
  malformedAt : ix.malformedAt = other.malformedAt
  replayed : ∀ i, other.Replayed i → (∃ f, other.frameAt i = .ok (.ok f)) ∧
    ix.frameAt i = other.frameAt i ∧ ix.addressAt i = other.addressAt i ∧
    ix.depthAt i = other.depthAt i ∧ ix.stackAt i = other.stackAt i

variable {ix other : FrameIndex}

theorem ancestors_congr (frames : ix.frames = other.frames) (id : CallFrameId) :
    lineage.ancestors ix id = lineage.ancestors other id := by
  have found (id : CallFrameId) : ix.frame? id = other.frame? id := by rw [frame?, frame?, frames]
  fun_induction lineage.ancestors other id with
  | case1 id unknown => rw [lineage.ancestors, found, unknown]
  | case2 id f known outermost =>
    rw [lineage.ancestors, found, known]
    simp [outermost]
  | case3 id f known caller parent smaller ih =>
    rw [lineage.ancestors, found, known]
    simp [parent, smaller, ih]
  | case4 id f known caller parent larger =>
    rw [lineage.ancestors, found, known]
    simp [parent, larger]

theorem lineage_congr (frames : ix.frames = other.frames) (f : CallFrame) :
    ix.lineage f = other.lineage f := by
  unfold lineage
  cases f.parent with
  | none => rfl
  | some caller => exact congrArg (· ++ [f]) (ancestors_congr frames caller)

/-- At a replayed step the frame is looked up, and no malformed step is in the way. -/
theorem frameAt_eq_owner {i : Nat} (replayed : ix.Replayed i) :
    ix.frameAt i = (ix.owner i).map .ok := by
  have sound : ix.malformationBefore i = none := by
    apply Option.filter_eq_none_iff.mpr
    intro m malformed
    simpa using replayed.2 m.step (congrArg (Option.map Malformation.step) malformed)
  rw [frameAt, if_neg (Nat.not_le.mpr replayed.1), sound]

theorem owner_congr (frames : ix.frames = other.frames) (segments : ix.segments = other.segments)
    (i : Nat) : ix.owner i = other.owner i := by
  rw [owner, owner, frames, segments]

/-- Of the malformed step only the place matters for the steps before it. -/
theorem answersLike_of_built {t : Trace} (built : build t = .ok other)
    (length : ix.length = other.length) (frames : ix.frames = other.frames)
    (segments : ix.segments = other.segments) (malformedAt : ix.malformedAt = other.malformedAt) :
    ix.AnswersLike other := by
  refine ⟨length, frames, malformedAt, ?_⟩
  intro i replayed
  have replayed' : ix.Replayed i := by
    unfold Replayed
    rw [length, malformedAt]
    exact replayed
  have frameAt' : ix.frameAt i = other.frameAt i := by
    rw [frameAt_eq_owner replayed', frameAt_eq_owner replayed, owner_congr frames segments]
  have known : ∃ f, other.frameAt i = .ok (.ok f) := by
    apply (frameAt_cases (steps_ne_nil built replayed.1) built replayed.1).resolve_right
    rintro ⟨m, malformed, behind, -⟩
    have before := replayed.2 m.step (congrArg (Option.map Malformation.step) malformed)
    exact Nat.not_le.mpr before behind
  refine ⟨known, frameAt', ?_, ?_, ?_⟩
  · rw [addressAt, addressAt, frameAt']
  · rw [depthAt, depthAt, frameAt']
  · rw [stackAt, stackAt, frameAt', funext (lineage_congr frames)]

theorem exists_build_of_raised {k : Nat} {t : Trace} {raised : FrameIndex}
    (built : build (t.raised k) = .ok raised) :
    ∃ ix, build t = .ok ix ∧ raised.AnswersLike ix := by
  obtain ⟨ix, plain, length, frames, segments, malformedAt⟩ : ∃ ix, build t = .ok ix ∧
      raised.length = ix.length ∧ raised.frames = ix.frames ∧ raised.segments = ix.segments ∧
        raised.malformedAt = ix.malformedAt := by
    cases steps : t.steps with
    | nil =>
      simp only [build, Trace.raised, steps, List.map_nil] at built ⊢
      cases built
      exact ⟨_, rfl, rfl, rfl, rfl, rfl⟩
    | cons first rest =>
      simp only [build, Trace.raised, steps, List.map_cons] at built ⊢
      obtain ⟨⟨r, malformed⟩, ran, made⟩ := Checked.bind_eq_ok.mp built
      obtain ⟨malformed', ran', same⟩ := Replay.exists_run_of_raised ran
      cases made
      refine ⟨_, Checked.bind_eq_ok.mpr ⟨_, ran', rfl⟩, ?_, rfl, rfl, same.symm⟩
      simp [Trace.length, steps]
  exact ⟨ix, plain, answersLike_of_built plain length frames segments malformedAt⟩

/-- At raised levels a trace has the call stacks that it has at its own ones. Its index has the
same frames and answers, unless the trace leaves the last level there is. Exactly then no index
can be built. -/
theorem build_raised (k : Nat) (t : Trace) :
    (∀ i, (t.raised k).callStack? i = t.callStack? i) ∧
      (∀ fault, build (t.raised k) = .error fault ↔
        fault = .sumOverflow ∧ ∃ i, (t.raised k).LeavesLastLevel i) ∧
      ((∃ i, (t.raised k).LeavesLastLevel i) ∨
        ∃ raised ix, build (t.raised k) = .ok raised ∧ build t = .ok ix ∧
          raised.AnswersLike ix) := by
  refine ⟨t.callStack?_raised k, fun _ => build_eq_error_iff, ?_⟩
  cases built : build (t.raised k) with
  | error fault => exact .inl (build_eq_error_iff.mp built).2
  | ok raised =>
    obtain ⟨ix, plain, like⟩ := exists_build_of_raised built
    exact .inr ⟨raised, ix, rfl, plain, like⟩

/-- A call that returns. -/
def returningCall : Trace where
  steps := [⟨0, Opcode.call, 0, some (.ofLast 0xbb)⟩, ⟨0, Opcode.jumpdest, 1, none⟩,
    ⟨1, Opcode.jumpdest, 0, none⟩]
  root := .contract (.ofLast 0xaa)
  bytecodes := .empty

/-- Recorded so that the call runs on the last level, it has no index. One level lower it has
the frames that it always has. -/
theorem returningCall_leaves_last_level :
    (∀ s ∈ (returningCall.raised (wordLimit - 2)).steps, s.depth < wordLimit) ∧
      build (returningCall.raised (wordLimit - 2)) = .error .sumOverflow ∧
      (∃ ix, build returningCall = .ok ix ∧ ix.frames.map (·.exitedAt) = [none, some 2]) ∧
      ∃ raised ix, build (returningCall.raised (wordLimit - 3)) = .ok raised ∧
        build returningCall = .ok ix ∧ raised.AnswersLike ix := by
  refine ⟨by decide, ?_, ⟨_, rfl, by decide⟩, ?_⟩
  · apply ((build_raised _ _).2.1 _).mpr
    refine ⟨rfl, 1, ⟨_, rfl⟩, _, _, rfl, rfl, by decide, by decide⟩
  · apply (build_raised _ _).2.2.resolve_left
    rintro ⟨i, -, before, after, hb, -, -, last⟩
    have low : ∀ s ∈ (returningCall.raised (wordLimit - 3)).steps, s.depth + 1 < wordLimit := by
      decide
    exact Nat.not_le.mpr (low before (List.mem_of_getElem? hb)) last

end FrameIndex

end TraceDebug

import TraceDebug.LoadedTrace
import TraceDebug.Navigator
import TraceDebug.Proofs.Frame.Lookup

/-!
# Where movements lead

A loaded trace was indexed, so its frame index has an answer for every step. A
movement from a cursor inside the trace then leads to another step inside the trace,
or nowhere; it does so in malformed traces too.
-/

namespace TraceDebug

namespace LoadedTrace

/-- The trace was checked and indexed when it was loaded. -/
def Indexed (l : LoadedTrace) : Prop := ∃ transaction t, index transaction t = .ok (.ok l)

variable {l : LoadedTrace}

theorem Indexed.built (h : l.Indexed) :
    l.trace.steps ≠ [] ∧ FrameIndex.build l.trace = .ok l.frames := by
  obtain ⟨transaction, t, indexed⟩ := h
  unfold index at indexed
  split at indexed
  · cases indexed
  · next nonempty =>
    obtain ⟨frames, built, made⟩ := Checked.bind_eq_ok.mp indexed
    cases made
    exact ⟨by simpa [Trace.isEmpty] using nonempty, built⟩

theorem Indexed.length_frames (h : l.Indexed) : l.frames.length = l.length :=
  FrameIndex.length_of_build h.built.2

/-- Of a step inside the trace the frame is known, unless the trace is malformed there. -/
theorem Indexed.frameAt_cases (h : l.Indexed) {step : Nat} (inside : step < l.length) :
    (∃ f, l.frames.frameAt step = .ok (.ok f)) ∨
      ∃ m, l.frames.malformed = some m ∧ m.step ≤ step ∧
        l.frames.Refuses step (.malformedTrace m.step m.cause.message) := by
  obtain ⟨nonempty, built⟩ := h.built
  exact FrameIndex.frameAt_cases nonempty built (h.length_frames ▸ inside)

theorem Indexed.exists_frameAt (h : l.Indexed) (step : Nat) :
    ∃ answer, l.frames.frameAt step = .ok answer :=
  FrameIndex.exists_frameAt h.built.2 step

theorem Indexed.exists_depthAt (h : l.Indexed) (step : Nat) :
    ∃ answer, l.frames.depthAt step = .ok answer := by
  obtain ⟨answer, found⟩ := h.exists_frameAt step
  exact ⟨_, Checked.map_eq_ok.mpr ⟨answer, found, rfl⟩⟩

end LoadedTrace

namespace Navigator

variable {p : Nat → Checked Bool}

theorem scanForward_inside {start count found : Nat}
    (h : scanForward p start count = .ok (some found)) : start ≤ found ∧ found < start + count := by
  induction count generalizing start with
  | zero => cases h
  | succ count ih =>
    obtain ⟨holds, -, h⟩ := Checked.bind_eq_ok.mp h
    cases holds with
    | true =>
      cases h
      exact ⟨Nat.le_refl _, by omega⟩
    | false =>
      have later := ih h
      omega

theorem exists_scanForward (total : ∀ i, ∃ holds, p i = .ok holds) (start count : Nat) :
    ∃ found, scanForward p start count = .ok found := by
  induction count generalizing start with
  | zero => exact ⟨none, rfl⟩
  | succ count ih =>
    obtain ⟨holds, known⟩ := total start
    cases holds with
    | true => exact ⟨some start, Checked.bind_eq_ok.mpr ⟨true, known, rfl⟩⟩
    | false =>
      obtain ⟨found, scanned⟩ := ih (start + 1)
      exact ⟨found, Checked.bind_eq_ok.mpr ⟨false, known, scanned⟩⟩

theorem scanBack_below {stop found : Nat} (h : scanBack p stop = .ok (some found)) :
    found < stop := by
  induction stop with
  | zero => cases h
  | succ stop ih =>
    obtain ⟨holds, -, h⟩ := Checked.bind_eq_ok.mp h
    cases holds with
    | true =>
      cases h
      exact Nat.lt_succ_self _
    | false => exact Nat.lt_succ_of_lt (ih h)

theorem exists_scanBack (total : ∀ i, ∃ holds, p i = .ok holds) (stop : Nat) :
    ∃ found, scanBack p stop = .ok found := by
  induction stop with
  | zero => exact ⟨none, rfl⟩
  | succ stop ih =>
    obtain ⟨holds, known⟩ := total stop
    cases holds with
    | true => exact ⟨some stop, Checked.bind_eq_ok.mpr ⟨true, known, rfl⟩⟩
    | false =>
      obtain ⟨found, scanned⟩ := ih
      exact ⟨found, Checked.bind_eq_ok.mpr ⟨false, known, scanned⟩⟩

variable {n : Navigator} {frames : FrameIndex} {t : Nat}

theorem nextStep_lt (h : n.nextStep = some t) : t < n.length := by
  unfold nextStep at h
  split at h
  · cases h
    assumption
  · cases h

theorem previousStep_lt (inside : n.cursor < n.length) (h : n.previousStep = some t) :
    t < n.length := by
  unfold previousStep at h
  split at h
  · cases h
  · cases h
    exact Nat.lt_of_le_of_lt (Nat.sub_le ..) inside

theorem overForward_lt (h : n.overForward frames = .ok (some t)) : t < n.length := by
  obtain ⟨answer, -, h⟩ := Checked.bind_eq_ok.mp h
  cases answer with
  | ok depth =>
    obtain ⟨start, -, h⟩ := Checked.bind_eq_ok.mp h
    have bounds := scanForward_inside h
    omega
  | error cause => exact nextStep_lt (Except.ok.inj h)

theorem overBack_lt (inside : n.cursor < n.length) (h : n.overBack frames = .ok (some t)) :
    t < n.length := by
  obtain ⟨answer, -, h⟩ := Checked.bind_eq_ok.mp h
  cases answer with
  | ok depth => exact Nat.lt_trans (scanBack_below h) inside
  | error cause => exact previousStep_lt inside (Except.ok.inj h)

theorem out_lt (h : n.out frames = .ok (some t)) : t < n.length := by
  obtain ⟨answer, -, h⟩ := Checked.bind_eq_ok.mp h
  cases answer with
  | ok frame =>
    dsimp only at h
    split at h
    · cases h
    · have returned : frame.exitedAt.filter (· < n.length) = some t := Except.ok.inj h
      simpa using (Option.filter_eq_some_iff.mp returned).2
  | error cause => cases h

theorem destination_lt (inside : n.cursor < n.length) {m : Movement}
    (h : n.destination frames m = .ok (some t)) : t < n.length := by
  cases m with
  | next => exact nextStep_lt (Except.ok.inj h)
  | previous => exact previousStep_lt inside (Except.ok.inj h)
  | first =>
    cases h
    exact Nat.zero_lt_of_lt inside
  | last =>
    obtain ⟨stop, difference, same⟩ := Checked.map_eq_ok.mp h
    cases same
    obtain ⟨positive, rfl⟩ := Checked.sub_eq_ok.mp difference
    exact Nat.sub_lt positive Nat.one_pos
  | stepOverForward => exact overForward_lt h
  | stepOverBack => exact overBack_lt inside h
  | jumpOut => exact out_lt h

/-- The target of a movement lies inside the trace and is not where the cursor is. -/
theorem target_inside (inside : n.cursor < n.length) {m : Movement}
    (h : n.target frames m = .ok (some t)) : t < n.length ∧ t ≠ n.cursor := by
  obtain ⟨found, led, kept⟩ := Checked.map_eq_ok.mp h
  obtain ⟨rfl, elsewhere⟩ := Option.filter_eq_some_iff.mp kept
  exact ⟨destination_lt inside led, by simpa using elsewhere⟩

theorem exists_reaches {trace : Trace} (built : FrameIndex.build trace = .ok frames)
    (depth step : Nat) : ∃ reached, reaches frames depth step = .ok reached := by
  obtain ⟨answer, found⟩ := FrameIndex.exists_frameAt built step
  exact ⟨_, Checked.map_eq_ok.mpr ⟨_, Checked.map_eq_ok.mpr ⟨answer, found, rfl⟩, rfl⟩⟩

variable {l : LoadedTrace}

theorem exists_overForward (indexed : l.Indexed) (addressable : n.cursor + 1 < wordLimit) :
    ∃ found, n.overForward l.frames = .ok found := by
  obtain ⟨answer, known⟩ := indexed.exists_depthAt n.cursor
  cases answer with
  | ok depth =>
    obtain ⟨found, scanned⟩ := exists_scanForward (exists_reaches indexed.built.2 depth)
      (n.cursor + 1) (n.length - (n.cursor + 1))
    have start : Checked.add n.cursor 1 = .ok (n.cursor + 1) :=
      Checked.add_eq_ok.mpr ⟨addressable, rfl⟩
    refine ⟨found, Checked.bind_eq_ok.mpr ⟨_, known, ?_⟩⟩
    exact Checked.bind_eq_ok.mpr ⟨_, start, scanned⟩
  | error cause => exact ⟨n.nextStep, Checked.bind_eq_ok.mpr ⟨_, known, rfl⟩⟩

theorem exists_overBack (indexed : l.Indexed) : ∃ found, n.overBack l.frames = .ok found := by
  obtain ⟨answer, known⟩ := indexed.exists_depthAt n.cursor
  cases answer with
  | ok depth =>
    obtain ⟨found, scanned⟩ := exists_scanBack (exists_reaches indexed.built.2 depth) n.cursor
    exact ⟨found, Checked.bind_eq_ok.mpr ⟨_, known, scanned⟩⟩
  | error cause => exact ⟨n.previousStep, Checked.bind_eq_ok.mpr ⟨_, known, rfl⟩⟩

theorem exists_out (indexed : l.Indexed) : ∃ found, n.out l.frames = .ok found := by
  obtain ⟨answer, known⟩ := indexed.exists_frameAt n.cursor
  cases answer with
  | ok frame =>
    by_cases outermost : frame.parent.isNone
    · refine ⟨none, Checked.bind_eq_ok.mpr ⟨_, known, ?_⟩⟩
      simp [outermost, pure, Except.pure]
    · refine ⟨frame.exitedAt.filter (· < n.length), Checked.bind_eq_ok.mpr ⟨_, known, ?_⟩⟩
      simp [outermost, pure, Except.pure]
  | error cause => exact ⟨none, Checked.bind_eq_ok.mpr ⟨_, known, rfl⟩⟩

/-- While positions fit into a word, every movement has an answer. -/
theorem exists_target (indexed : l.Indexed) (inside : n.cursor < n.length)
    (addressable : n.cursor + 1 < wordLimit) (m : Movement) :
    ∃ found, n.target l.frames m = .ok found := by
  have answered : ∃ found, n.destination l.frames m = .ok found := by
    cases m with
    | next => exact ⟨_, rfl⟩
    | previous => exact ⟨_, rfl⟩
    | first => exact ⟨_, rfl⟩
    | last =>
      have difference : Checked.sub n.length 1 = .ok (n.length - 1) :=
        Checked.sub_eq_ok.mpr ⟨Nat.one_le_of_lt inside, rfl⟩
      exact ⟨_, Checked.map_eq_ok.mpr ⟨_, difference, rfl⟩⟩
    | stepOverForward => exact exists_overForward indexed addressable
    | stepOverBack => exact exists_overBack indexed
    | jumpOut => exact exists_out indexed
  obtain ⟨found, led⟩ := answered
  exact ⟨_, Checked.map_eq_ok.mpr ⟨found, led, rfl⟩⟩

end Navigator

end TraceDebug

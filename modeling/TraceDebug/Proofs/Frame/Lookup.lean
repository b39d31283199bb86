import TraceDebug.Proofs.Frame.Replay

/-!
# Look-ups in a built index

An index holds the state at which the replay ended. For a step that was replayed
it finds the top of the stack of that step among the segments, and walks along
the parents through the whole stack.
-/

namespace TraceDebug

namespace FrameIndex

/-- The index that holds the last state of a replay. -/
def ofReplay (t : Trace) (r : Replay) (malformed : Option Malformation) : FrameIndex :=
  ⟨r.frames.reverse, r.segments, t.length, malformed⟩

theorem exists_build {t : Trace} (nonempty : t.steps ≠ [])
    (bounded : ∀ s ∈ t.steps, s.depth + 1 < wordLimit) :
    ∃ r malformed, build t = .ok (ofReplay t r malformed) ∧ Replay.Ends t r malformed := by
  obtain ⟨first, rest, split⟩ := List.exists_cons_of_ne_nil nonempty
  obtain ⟨r, malformed, ran, ends⟩ :=
    Replay.exists_run bounded (.start nonempty) (show t.steps.drop 0 = first :: rest from split)
  refine ⟨r, malformed, ?_, ends⟩
  have run : (Replay.start t.root).run 1 first rest = .ok (r, malformed) := ran
  simp [build, split, run, ofReplay, bind, Except.bind, pure, Except.pure]

/-- An index that could be built holds the last state of the replay. -/
theorem ends_of_build {t : Trace} {ix : FrameIndex} (nonempty : t.steps ≠ [])
    (built : build t = .ok ix) :
    ∃ r malformed, ix = ofReplay t r malformed ∧ Replay.Ends t r malformed := by
  obtain ⟨first, rest, split⟩ := List.exists_cons_of_ne_nil nonempty
  simp only [build, split] at built
  obtain ⟨⟨r, malformed⟩, ran, made⟩ := Checked.bind_eq_ok.mp built
  cases made
  exact ⟨r, malformed, rfl, Replay.ends_of_run (.start nonempty) split ran⟩

/-- The walk along parents meets the frames of a linked stack, innermost last. -/
theorem map_some_ancestors {ix : FrameIndex} {id : CallFrameId} {rest : List CallFrameId}
    (linked : Linked ix.frame? (id :: rest)) :
    (lineage.ancestors ix id).map some = ((id :: rest).map ix.frame?).reverse := by
  induction rest generalizing id with
  | nil =>
    obtain ⟨⟨f, hf, parent, -⟩, -, -⟩ := linked
    rw [lineage.ancestors, hf]
    simp [parent, hf]
  | cons caller rest ih =>
    obtain ⟨⟨f, hf, parent, -⟩, below, linked⟩ := linked
    have smaller : caller.index < id.index := below caller List.mem_cons_self
    rw [lineage.ancestors, hf]
    simp [parent, smaller, ih linked, hf]

theorem map_some_lineage {ix : FrameIndex} {id : CallFrameId} {rest : List CallFrameId}
    {f : CallFrame} (linked : Linked ix.frame? (id :: rest)) (hf : ix.frame? id = some f) :
    (ix.lineage f).map some = ((id :: rest).map ix.frame?).reverse := by
  obtain ⟨⟨g, hg, parent, -⟩, -, linked⟩ := linked
  obtain rfl : g = f := Option.some.inj (hg.symm.trans hf)
  cases rest with
  | nil => simp [lineage, parent, hf]
  | cons caller rest => simp [lineage, parent, map_some_ancestors linked, hf]

/-- All questions about a step are refused with one error. -/
def Refuses (ix : FrameIndex) (step : Nat) (e : ResolutionError) : Prop :=
  ix.frameAt step = .ok (.error e) ∧ ix.addressAt step = .ok (.error e) ∧
    ix.depthAt step = .ok (.error e) ∧ ix.stackAt step = .ok (.error e)

theorem refuses_of_frameAt {ix : FrameIndex} {step : Nat} {e : ResolutionError}
    (h : ix.frameAt step = .ok (.error e)) : ix.Refuses step e := by
  refine ⟨h, ?_, ?_, ?_⟩
  · rw [addressAt, h]
    rfl
  · rw [depthAt, h]
    rfl
  · rw [stackAt, h]
    rfl

theorem refuses_outside {ix : FrameIndex} {step : Nat} (h : ix.length ≤ step) :
    ix.Refuses step (.stepOutOfRange step ix.length) :=
  refuses_of_frameAt (if_pos h)

theorem refuses_behind {ix : FrameIndex} {step : Nat} {m : Malformation}
    (bound : step < ix.length) (malformed : ix.malformed = some m) (behind : m.step ≤ step) :
    ix.Refuses step (.malformedTrace m.step m.cause.message) := by
  apply refuses_of_frameAt
  have found : ix.malformationBefore step = some m := by
    simp [malformationBefore, malformed, behind]
  rw [frameAt, if_neg (Nat.not_le.mpr bound), found]

end FrameIndex

namespace Replay

/-- The states of all steps before the malformed one were passed. -/
theorem Ends.passed {t : Trace} {s : Replay} {malformed : Option Malformation}
    (ends : Ends t s malformed) {i : Nat} (bound : i < t.steps.length)
    (before : ∀ m, malformed = some m → i < m.step) : ∃ r, Reaches t i r ∧ Later i r s := by
  cases malformed with
  | none =>
    obtain ⟨last, eq, reached⟩ := ends
    exact reached.earlier (by omega)
  | some m =>
    obtain ⟨last, _, _, eq, reached, -⟩ := ends
    have := before m rfl
    exact reached.earlier (by omega)

variable {t : Trace} {i : Nat} {r s : Replay} {malformed : Option Malformation}

/-- The newest segment that starts at a step or before it is the one that was the
newest at that step. -/
theorem Reaches.owner (reached : Reaches t i r) (later : Later i r s)
    (malformed : Option Malformation) :
    ∃ top rest f, r.stack = top :: rest ∧ (FrameIndex.ofReplay t s malformed).frame? top = some f ∧
      (FrameIndex.ofReplay t s malformed).owner i = .ok f := by
  have coherent := reached.coherent
  obtain ⟨segment, older, segments, starts, top⟩ := coherent.top
  obtain ⟨rest, stack⟩ := List.head?_eq_some_iff.mp top
  obtain ⟨g, hg⟩ := coherent.linked.known (stack ▸ List.mem_cons_self)
  obtain ⟨f, hf, -⟩ := later.frame? hg
  refine ⟨segment.frame, rest, f, stack, hf, ?_⟩
  have found : s.segments.find? (·.start ≤ i) = some segment := by
    obtain ⟨newer, eq, starts'⟩ := later.segments
    have skipped : newer.find? (·.start ≤ i) = none := by
      apply List.find?_eq_none.mpr
      intro x mem
      simpa using starts' x mem
    rw [eq, List.find?_append, skipped, segments, List.find?_cons_of_pos (by simpa using starts)]
    rfl
  have placed : s.frames.reverse[segment.frame.index]? = some f := hf
  simp [FrameIndex.ofReplay, FrameIndex.owner, found, placed]

/-- A replayed step has the frame on top of its stack, and the stack is the
lineage of that frame. -/
theorem Reaches.frameAt (reached : Reaches t i r) (later : Later i r s)
    (before : ∀ m, malformed = some m → i < m.step) :
    ∃ f, (FrameIndex.ofReplay t s malformed).frameAt i = .ok (.ok f) ∧
      f.depth + 1 = r.stack.length ∧
      ((FrameIndex.ofReplay t s malformed).lineage f).map some = (r.stack.map s.frame?).reverse ∧
      r.stack.head?.bind s.frame? = some f := by
  obtain ⟨top, rest, f, stack, hf, owned⟩ := reached.owner later malformed
  have linked : Linked s.frame? r.stack := reached.coherent.linked.mono fun _ _ => later.frame?
  rw [stack] at linked ⊢
  refine ⟨f, ?_, ?_, FrameIndex.map_some_lineage linked hf, hf⟩
  · have inside : ¬ (FrameIndex.ofReplay t s malformed).length ≤ i :=
      Nat.not_le.mpr reached.bound
    have sound : (FrameIndex.ofReplay t s malformed).malformationBefore i = none := by
      apply Option.filter_eq_none_iff.mpr
      intro m eq
      simpa using before m eq
    rw [FrameIndex.frameAt, if_neg inside, sound, owned]
    rfl
  · obtain ⟨⟨g, hg, -, depth⟩, -, -⟩ := linked
    obtain rfl : g = f := Option.some.inj (hg.symm.trans hf)
    rw [depth, List.length_cons]

end Replay

namespace FrameIndex

/-- An index that could be built finds the frame of a step inside its trace, or
refuses the step for a malformed one that is not behind it. -/
theorem frameAt_cases {t : Trace} {ix : FrameIndex} (nonempty : t.steps ≠ [])
    (built : build t = .ok ix) {step : Nat} (inside : step < ix.length) :
    (∃ f, ix.frameAt step = .ok (.ok f)) ∨
      ∃ m, ix.malformed = some m ∧ m.step ≤ step ∧
        ix.Refuses step (.malformedTrace m.step m.cause.message) := by
  obtain ⟨r, malformed, rfl, ends⟩ := ends_of_build nonempty built
  by_cases before : ∀ m, malformed = some m → step < m.step
  · obtain ⟨earlier, reached, later⟩ := ends.passed inside before
    obtain ⟨f, found, -⟩ := reached.frameAt later before
    exact .inl ⟨f, found⟩
  · cases malformed with
    | none => exact absurd nofun before
    | some m =>
      have behind : m.step ≤ step := by simpa using before
      exact .inr ⟨m, rfl, behind, refuses_behind inside rfl behind⟩

theorem length_of_build {t : Trace} {ix : FrameIndex} (built : build t = .ok ix) :
    ix.length = t.length := by
  cases steps : t.steps with
  | nil =>
    simp only [build, steps] at built
    cases built
    simp [Trace.length, steps]
  | cons first rest =>
    obtain ⟨s, malformed, rfl, -⟩ := ends_of_build (by simp [steps]) built
    rfl

theorem steps_ne_nil {t : Trace} {ix : FrameIndex} (built : build t = .ok ix) {step : Nat}
    (inside : step < ix.length) : t.steps ≠ [] := by
  intro empty
  simp only [build, empty] at built
  cases built
  exact Nat.not_lt_zero step inside

/-- An index that could be built has an answer for every step. -/
theorem exists_frameAt {t : Trace} {ix : FrameIndex} (built : build t = .ok ix) (step : Nat) :
    ∃ answer, ix.frameAt step = .ok answer := by
  by_cases inside : step < ix.length
  · rcases frameAt_cases (steps_ne_nil built inside) built inside with
      ⟨f, found⟩ | ⟨m, -, -, refused, -⟩
    · exact ⟨_, found⟩
    · exact ⟨_, refused⟩
  · exact ⟨_, (refuses_outside (Nat.le_of_not_lt inside)).1⟩

end FrameIndex

end TraceDebug

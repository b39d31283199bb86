import TraceDebug.Proofs.Frame.Agreement
import TraceDebug.Proofs.Trace.Recording

/-!
# Frames recovered from a recording

A builder writes down levels, and the replay has to find the frames again. From a well
bracketed recording it recovers them all: which frames are open at each step, what they
run, and how many there are.
-/

namespace TraceDebug

namespace TraceBuilder

variable {root : ExecutingAddress} {b : TraceBuilder} {marks : List Mark}

/-- What a mark does to the open frames, the change of level does to the call stack. -/
theorem nextStack?_of_mark {before after : Step} {mark : Mark} {frames : List ExecutingAddress}
    {i : Nat} (height : before.depth = frames.length + 1)
    (level : after.depth = mark.level before.depth)
    (opened : ∀ address, mark = .opens address → before.opened? i = some address)
    (closes : mark = .closes → frames ≠ []) :
    before.nextStack? after i (frames ++ [root]) = some (mark.after frames ++ [root]) := by
  cases mark with
  | stays =>
    have same : after.depth = before.depth := level
    simp [Step.nextStack?, same, Mark.after]
  | opens address =>
    have deeper : after.depth = before.depth + 1 := level
    simp [Step.nextStack?, deeper, opened address rfl, Mark.after]
  | closes =>
    obtain ⟨newest, rest, rfl⟩ := List.exists_cons_of_ne_nil (closes rfl)
    have returned : before.depth = after.depth + 1 := by
      have shallower : after.depth = before.depth - 1 := level
      omega
    rw [Replay.nextStack?_returned returned Nat.one_pos, if_pos (by simp)]
    rfl

/-- The call stack of a step has the open frames, and its level is their number. -/
theorem Records.callStack? (h : Records root b marks) (closable : Closable marks) {i : Nat}
    (inside : i < marks.length) :
    b.trace.callStack? i = some (openAt marks i ++ [root]) ∧
      (marks.take i).foldl Mark.level 1 = (openAt marks i).length + 1 := by
  induction i with
  | zero =>
    have recorded : b.trace.steps ≠ [] := by
      rw [← List.length_pos_iff, h.length]
      exact inside
    exact ⟨by simp [Trace.callStack?, Trace.isEmpty, recorded, openAt, h.root], rfl⟩
  | succ i ih =>
    have earlier : i < marks.length := Nat.lt_of_succ_lt inside
    obtain ⟨current, height⟩ := ih earlier
    have hb := List.getElem?_eq_getElem (h.length ▸ earlier : i < b.trace.steps.length)
    have ha := List.getElem?_eq_getElem (h.length ▸ inside : i + 1 < b.trace.steps.length)
    have marked : marks[i]? = some marks[i] := List.getElem?_eq_getElem earlier
    have closes : marks[i] = .closes → openAt marks i ≠ [] := by
      intro closing
      rcases closable i earlier (closing ▸ marked) with isOpen | last
      · exact isOpen
      · omega
    have level := h.level (i + 1) _ ha
    rw [level_take_succ marked, ← h.level i _ hb] at level
    rw [openAt_succ marked, level_take_succ marked]
    refine ⟨?_, Mark.level_eq height closes⟩
    rw [Trace.callStack?_succ hb ha, current]
    apply nextStack?_of_mark ((h.level i _ hb).trans height) level _ closes
    intro address opening
    exact h.opened i _ address hb (opening ▸ marked)

/-- The replay enters a frame behind each opening step. -/
theorem Records.length_frames (h : Records root b marks) {i : Nat} {r : Replay}
    (reached : Replay.Reaches b.trace i r) :
    r.frames.length = 1 + (marks.take i).countP Mark.isOpening := by
  induction reached with
  | start => rfl
  | @next i r s before after reached hb ha advanced ih =>
    have inside : i < marks.length := by
      rw [← h.length]
      exact (List.getElem?_eq_some_iff.mp hb).1
    have marked : marks[i]? = some marks[i] := List.getElem?_eq_getElem inside
    have level := h.level (i + 1) after ha
    rw [level_take_succ marked, ← h.level i before hb] at level
    have opening : marks[i].isOpening = true ↔ after.depth = before.depth + 1 := by
      rw [level]
      exact Mark.isOpening_iff
    have counted : (marks.take (i + 1)).countP Mark.isOpening =
        (marks.take i).countP Mark.isOpening +
          if after.depth = before.depth + 1 then 1 else 0 := by
      rw [List.take_add_one, marked, List.countP_append, Option.toList_some, List.countP_singleton]
      simp only [opening]
    rw [counted]
    rcases Replay.advance_cases advanced with ⟨same, rfl⟩ | ⟨address, deeper, -, rfl⟩ |
      ⟨returns, top, returned, positive, -, rfl⟩
    · rw [if_neg (by omega)]
      exact ih
    · have entered : (r.enter (i + 1) address).frames.length = r.frames.length + 1 := rfl
      rw [if_pos deeper, entered, ih]
      rfl
    · have kept : (r.left (i + 1) returns top).frames.length = r.frames.length := List.length_map _
      rw [if_neg (by omega), kept]
      exact ih

/-- The index knows the frames that were open when each step was recorded. -/
structure Recovers (root : ExecutingAddress) (marks : List Mark) (ix : FrameIndex) : Prop where
  length : ix.length = marks.length
  wellFormed : ix.malformedAt = none
  recalled : ∀ i < marks.length, ∃ frames, ix.stackAt i = .ok (.ok frames) ∧
    frames.map (·.address) = root :: (openAt marks i).reverse
  /-- There is the outermost frame, and one for each frame opened for a further step. -/
  counted : marks ≠ [] → ix.frames.length = 1 + openings marks
  empty : marks = [] → ix.frames = []

theorem Records.wellFormed (h : Records root b marks) (closable : Closable marks) {s : Replay}
    {malformed : Option Malformation} (ends : Replay.Ends b.trace s malformed) :
    malformed = none := by
  apply Option.map_eq_none_iff.mp
  apply ends.eq_none_iff.mpr
  intro i inside
  exact ⟨_, (h.callStack? closable (h.length ▸ inside)).1⟩

theorem Records.recovers (h : Records root b marks) (closable : Closable marks) {s : Replay}
    (ends : Replay.Ends b.trace s none) :
    Recovers root marks (FrameIndex.ofReplay b.trace s none) := by
  obtain ⟨last, final, reached⟩ := ends
  rw [h.length] at final
  exact {
    length := h.length
    wellFormed := rfl
    recalled := by
      intro i inside
      obtain ⟨r, earlier, later⟩ := reached.earlier (show i ≤ last by omega)
      have wellFormed : ∀ m : Malformation, none = some m → i < m.step := nofun
      obtain ⟨stack, top, frames, height, current, stacked, addresses, -⟩ :=
        FrameIndex.answers_of_reaches earlier later wellFormed
      obtain rfl : stack = openAt marks i ++ [root] :=
        Option.some.inj (current.symm.trans (h.callStack? closable inside).1)
      refine ⟨frames, stacked, ?_⟩
      rw [addresses, List.reverse_append]
      rfl
    counted := by
      intro _
      rw [openings, List.dropLast_eq_take, ← final, Nat.add_sub_cancel, ← h.length_frames reached]
      exact List.length_reverse
    empty := by
      rintro rfl
      cases final }

theorem recovers_empty (root : ExecutingAddress) : Recovers root [] ⟨[], [], 0, none⟩ where
  length := rfl
  wellFormed := rfl
  recalled := nofun
  counted := fun some => absurd rfl some
  empty := fun _ => rfl

/-- The replay of a well bracketed recording recovers what the builder was told. -/
theorem replay_recovers_recording (root : ExecutingAddress) {calls : List Call}
    (bracketed : WellBracketed calls)
    (bounded : ∀ s ∈ (recorded root calls).steps, s.depth + 1 < wordLimit) :
    ∃ ix, FrameIndex.build (recorded root calls) = .ok ix ∧
      Recovers root (marksOf calls) ix := by
  have records : Records root (calls.foldl perform (new root)) (marksOf calls) :=
    (records_new root).foldl bracketed.entersCode
  by_cases empty : (recorded root calls).steps = []
  · have unmarked : marksOf calls = [] := by
      rw [← List.length_eq_zero_iff, ← records.length]
      exact List.length_eq_zero_iff.mpr empty
    refine ⟨_, by rw [FrameIndex.build, empty], ?_⟩
    rw [unmarked]
    exact recovers_empty root
  · obtain ⟨s, malformed, built, ends⟩ := FrameIndex.exists_build empty bounded
    obtain rfl := records.wellFormed bracketed.closable ends
    exact ⟨_, built, records.recovers bracketed.closable ends⟩

/-- A trace without steps has no frame, not even the outermost one. -/
theorem empty_recording_has_no_frame :
    WellBracketed [] ∧
      (∀ s ∈ (recorded (.contract (.ofLast 0xaa)) []).steps, s.depth + 1 < wordLimit) ∧
      ∃ ix, FrameIndex.build (recorded (.contract (.ofLast 0xaa)) []) = .ok ix ∧
        ix.frames.length ≠ 1 + openings (marksOf []) :=
  ⟨⟨nofun, nofun⟩, nofun, _, rfl, by decide⟩

/-- A static call whose code creates a frame that returns at once, a call that opens none, a
borrowed one, and a return from the outermost frame at the end. -/
def nestedRecording : List Call :=
  [.steps 2, .callWith 0 0xfa (.ofLast 0xbb), .code (.contract (.ofLast 0xbb)) [0x5f], .create 1,
    .ret 2, .ret 0, .flatCall 3 (.ofLast 0xcc), .delegateCall 4 (.ofLast 0xcc), .ret 9, .ret 5]

theorem nestedRecording_recovered :
    WellBracketed nestedRecording ∧
      (∀ s ∈ (recorded (.contract (.ofLast 0xaa)) nestedRecording).steps,
        s.depth + 1 < wordLimit) ∧
      ∃ ix, FrameIndex.build (recorded (.contract (.ofLast 0xaa)) nestedRecording) = .ok ix ∧
        Recovers (.contract (.ofLast 0xaa)) (marksOf nestedRecording) ix ∧
        openAt (marksOf nestedRecording) 4 =
          [.creation (.step 3), .contract (.ofLast 0xbb)] ∧
        openAt (marksOf nestedRecording) 9 = [] ∧ ix.frames.length = 4 := by
  have bracketed : WellBracketed nestedRecording := ⟨by decide, by decide⟩
  have bounded : ∀ s ∈ (recorded (.contract (.ofLast 0xaa)) nestedRecording).steps,
      s.depth + 1 < wordLimit := by decide
  obtain ⟨ix, built, recovers⟩ :=
    replay_recovers_recording (.contract (.ofLast 0xaa)) bracketed bounded
  exact ⟨bracketed, bounded, ix, built, recovers, by decide, by decide,
    recovers.counted (by decide)⟩

end TraceBuilder

end TraceDebug

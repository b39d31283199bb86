import TraceDebug.Proofs.Navigator

/-!
# Frame look-ups with every access checked

The guarded form of a function is that function with every read by index, every write, every
sum and every difference checked. It comes to the same result, so none of them fails.

A frame is looked up by a binary search among the segments, the oldest first: the segment of a
step is the one in front of the first that starts later. There is always one, since the first
segment starts with the trace.
-/

namespace TraceDebug

/-- The number of elements in front of the first one that fails. -/
def partitionPoint {α : Type} (p : α → Bool) (l : List α) : Nat := (l.takeWhile p).length

/-- What a binary search looks for: the place up to which a list satisfies a predicate, and
from which on it does not. -/
def PartsAt {α : Type} (p : α → Bool) (l : List α) (place : Nat) : Prop :=
  place ≤ l.length ∧ ∀ i a, l[i]? = some a → (p a = true ↔ i < place)

section
variable {α : Type} {p : α → Bool} {l : List α}

theorem partitionPoint_le (p : α → Bool) (l : List α) : partitionPoint p l ≤ l.length :=
  (List.takeWhile_sublist p).length_le

theorem getElem?_partitionPoint (p : α → Bool) (l : List α) :
    l[partitionPoint p l]? = l.find? (!p ·) := by
  induction l with
  | nil => rfl
  | cons a l ih =>
    by_cases holds : p a = true
    · rw [partitionPoint, List.takeWhile_cons_of_pos holds, List.length_cons,
        List.getElem?_cons_succ, List.find?_cons_of_neg (by simp [holds])]
      exact ih
    · rw [partitionPoint, List.takeWhile_cons_of_neg holds,
        List.find?_cons_of_pos (by simpa using holds)]
      rfl

theorem getLast?_takeWhile_of_eq_zero (none : partitionPoint p l = 0) :
    (l.takeWhile p).getLast? = .none := by
  rw [List.length_eq_zero_iff.mp none]
  rfl

/-- In front of the partition point stands the last element that satisfies the predicate. -/
theorem exists_front (found : 0 < partitionPoint p l) :
    ∃ a, l[partitionPoint p l - 1]? = some a ∧ (l.takeWhile p).getLast? = some a := by
  have inside : partitionPoint p l - 1 < (l.takeWhile p).length := Nat.sub_lt found Nat.one_pos
  refine ⟨_, List.prefix_iff_getElem?.mp (List.takeWhile_prefix p) _ inside, ?_⟩
  rw [List.getLast?_eq_getElem?]
  exact List.getElem?_eq_getElem inside

theorem partsAt_partitionPoint (ordered : l.Pairwise fun a b => p b = true → p a = true) :
    PartsAt p l (partitionPoint p l) := by
  refine ⟨partitionPoint_le p l, ?_⟩
  induction l with
  | nil => simp
  | cons a l ih =>
    obtain ⟨first, ordered⟩ := List.pairwise_cons.mp ordered
    intro i b placed
    by_cases holds : p a = true
    · rw [partitionPoint, List.takeWhile_cons_of_pos holds, List.length_cons]
      cases i with
      | zero =>
        cases placed
        exact iff_of_true holds (Nat.succ_pos _)
      | succ i =>
        rw [Nat.succ_lt_succ_iff]
        exact ih ordered i b placed
    · have fails : p b ≠ true := by
        cases i with
        | zero =>
          cases placed
          exact holds
        | succ i => exact fun later => holds (first b (List.mem_of_getElem? placed) later)
      rw [partitionPoint, List.takeWhile_cons_of_neg holds]
      exact iff_of_false fails (Nat.not_lt_zero i)

/-- From behind, the first element that satisfies the predicate is the one in front of the
partition point. -/
theorem find?_reverse (ordered : l.Pairwise fun a b => p b = true → p a = true) :
    l.reverse.find? p = (l.takeWhile p).getLast? := by
  induction l with
  | nil => rfl
  | cons a l ih =>
    obtain ⟨first, ordered⟩ := List.pairwise_cons.mp ordered
    rw [List.reverse_cons, List.find?_append, ih ordered]
    by_cases holds : p a = true
    · rw [List.takeWhile_cons_of_pos holds, List.getLast?_cons, List.find?_cons_of_pos holds]
      cases (l.takeWhile p).getLast? <;> rfl
    · have fails : l.takeWhile p = [] := by
        cases l with
        | nil => rfl
        | cons b l =>
          exact List.takeWhile_cons_of_neg fun later => holds (first b List.mem_cons_self later)
      rw [List.takeWhile_cons_of_neg holds, fails, List.find?_cons_of_neg holds]
      rfl

end

namespace Replay

/-- The newest segment comes first, and none starts behind the step of the state. -/
theorem Reaches.segments_descending {t : Trace} {i : Nat} {r : Replay} (reached : Reaches t i r) :
    r.segments.Pairwise (fun a b => b.start < a.start) ∧
      ∀ segment ∈ r.segments, segment.start ≤ i := by
  induction reached with
  | start => exact ⟨List.pairwise_singleton _ _, by simp [Replay.start]⟩
  | @next i r s before after _ _ _ advanced ih =>
    obtain ⟨descending, started⟩ := ih
    have started' : ∀ segment ∈ r.segments, segment.start < i + 1 :=
      fun segment mem => Nat.lt_succ_of_le (started segment mem)
    have extended (frame : CallFrameId) :
        (⟨i + 1, frame⟩ :: r.segments).Pairwise (fun a b => b.start < a.start) ∧
          ∀ segment ∈ ⟨i + 1, frame⟩ :: r.segments, segment.start ≤ i + 1 :=
      ⟨List.pairwise_cons.mpr ⟨started', descending⟩,
        List.forall_mem_cons.mpr ⟨Nat.le_refl _, fun _ mem => Nat.le_of_lt (started' _ mem)⟩⟩
    rcases advance_cases advanced with ⟨-, rfl⟩ | ⟨address, -, -, rfl⟩ |
      ⟨returns, top, -, -, -, rfl⟩
    · exact ⟨descending, fun _ mem => Nat.le_of_lt (started' _ mem)⟩
    · exact extended _
    · exact extended _

theorem Ends.segments_descending {t : Trace} {r : Replay} {malformed : Option Malformation}
    (ends : Ends t r malformed) : r.segments.Pairwise fun a b => b.start < a.start := by
  cases malformed with
  | none =>
    obtain ⟨i, -, reached⟩ := ends
    exact reached.segments_descending.1
  | some m =>
    obtain ⟨i, before, after, -, reached, -⟩ := ends
    exact reached.segments_descending.1

end Replay

namespace FrameIndex

/-- Whether a segment starts at a step or before it. -/
def begun (step : Nat) (segment : Segment) : Bool := segment.start ≤ step

theorem begun_parts {t : Trace} {ix : FrameIndex} (nonempty : t.steps ≠ [])
    (built : build t = .ok ix) (step : Nat) :
    ix.segments.reverse.Pairwise fun a b => begun step b = true → begun step a = true := by
  obtain ⟨r, malformed, rfl, ends⟩ := ends_of_build nonempty built
  refine (List.pairwise_reverse.mpr ends.segments_descending).imp ?_
  intro a b earlier later
  simp only [begun, decide_eq_true_eq] at later ⊢
  omega

end FrameIndex

namespace Guarded

open FrameIndex

def owner (ix : FrameIndex) (step : Nat) : Checked CallFrame := do
  let segments := ix.segments.reverse
  let place ← Checked.sub (partitionPoint (begun step) segments) 1
  let segment ← Checked.get segments place
  Checked.get ix.frames segment.frame.index

def frameAt (ix : FrameIndex) (step : Nat) : Checked (Except ResolutionError CallFrame) :=
  if ix.length ≤ step then .ok (.error (.stepOutOfRange step ix.length))
  else match ix.malformationBefore step with
    | some m => .ok (.error (.malformedTrace m.step m.cause.message))
    | none => (owner ix step).map .ok

theorem owner_eq {t : Trace} {ix : FrameIndex} (nonempty : t.steps ≠ [])
    (built : build t = .ok ix) (step : Nat) : owner ix step = ix.owner step := by
  have newest : ix.segments.find? (·.start ≤ step) =
      (ix.segments.reverse.takeWhile (begun step)).getLast? := by
    rw [← find?_reverse (begun_parts nonempty built step), List.reverse_reverse]
    rfl
  rw [FrameIndex.owner, newest, owner]
  rcases Nat.eq_zero_or_pos (partitionPoint (begun step) ix.segments.reverse) with none | found
  · rw [getLast?_takeWhile_of_eq_zero none, none]
    rfl
  · obtain ⟨segment, placed, last⟩ := exists_front found
    have before : Checked.sub (partitionPoint (begun step) ix.segments.reverse) 1 =
        .ok (partitionPoint (begun step) ix.segments.reverse - 1) :=
      Checked.sub_eq_ok.mpr ⟨found, rfl⟩
    have read := Checked.get_eq_ok.mpr placed
    rw [last]
    simp only [before, read, bind, Except.bind]

theorem frameAt_eq {t : Trace} {ix : FrameIndex} (nonempty : t.steps ≠ [])
    (built : build t = .ok ix) (step : Nat) : frameAt ix step = ix.frameAt step := by
  rw [frameAt, owner_eq nonempty built]
  rfl

/-- Some segment starts at each replayed step or before it. -/
theorem partitionPoint_pos {t : Trace} {ix : FrameIndex} (nonempty : t.steps ≠ [])
    (built : build t = .ok ix) {step : Nat} (inside : step < ix.length)
    (replayed : ix.malformationBefore step = none) :
    0 < partitionPoint (begun step) ix.segments.reverse := by
  obtain ⟨answer, known⟩ := exists_frameAt built step
  rw [← frameAt_eq nonempty built, frameAt, if_neg (Nat.not_le.mpr inside), replayed] at known
  obtain ⟨f, owned, -⟩ := Checked.map_eq_ok.mp known
  obtain ⟨place, before, -⟩ := Checked.bind_eq_ok.mp owned
  exact (Checked.sub_eq_ok.mp before).1

end Guarded

end TraceDebug

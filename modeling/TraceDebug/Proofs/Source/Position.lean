import Mathlib.Data.List.TakeWhile
import TraceDebug.Source.File

/-!
# Positions in a text

The position that is found for an offset is the one that counting gives: as many lines as
there are line breaks before the offset, and as many bytes as there are behind the last.
-/

namespace TraceDebug

def positionIn (text : List UInt8) (offset : Nat) : LineColumn :=
  let before := text.take offset
  ⟨before.count 10, (before.reverse.takeWhile (· ≠ 10)).length⟩

/-- The text is whole lines, which end with line breaks, and the first bytes of one more. -/
structure SplitsInto (text lines rest : List UInt8) : Prop where
  append : lines ++ rest = text
  whole : lines = [] ∨ lines.getLast? = some 10
  sameLine : 10 ∉ rest

namespace SplitsInto

variable {text lines rest : List UInt8}

theorem empty : SplitsInto [] [] [] := ⟨rfl, .inl rfl, by simp⟩

theorem lineBreak (text : List UInt8) : SplitsInto (text ++ [10]) (text ++ [10]) [] :=
  ⟨List.append_nil _, .inr (by simp), by simp⟩

theorem byte (h : SplitsInto text lines rest) {b : UInt8} (other : b ≠ 10) :
    SplitsInto (text ++ [b]) lines (rest ++ [b]) := by
  refine ⟨by rw [← List.append_assoc, h.append], h.whole, ?_⟩
  intro mem
  rcases List.mem_append.mp mem with mem | mem
  · exact h.sameLine mem
  · exact other (List.mem_singleton.mp mem).symm

theorem count_eq (h : SplitsInto text lines rest) : text.count 10 = lines.count 10 := by
  rw [← h.append, List.count_append, List.count_eq_zero_of_not_mem h.sameLine, Nat.add_zero]

theorem reverse_takeWhile (h : SplitsInto text lines rest) :
    text.reverse.takeWhile (· ≠ 10) = rest.reverse := by
  have sameLine : ∀ b ∈ rest.reverse, decide (b ≠ 10) = true := by
    intro b mem
    apply decide_eq_true
    rintro rfl
    exact h.sameLine (List.mem_reverse.mp mem)
  have behind : lines.reverse.takeWhile (· ≠ 10) = [] := by
    rcases h.whole with rfl | last
    · rfl
    · obtain ⟨before, rfl⟩ := List.getLast?_eq_some_iff.mp last
      simp
  rw [← h.append, List.reverse_append, List.takeWhile_append_of_pos sameLine, behind,
    List.append_nil]

theorem length_add {offset : Nat} (h : SplitsInto (text.take offset) lines rest)
    (inside : offset ≤ text.length) : lines.length + rest.length = offset := by
  rw [← List.length_append, h.append, List.length_take]
  exact Nat.min_eq_left inside

theorem positionIn {offset : Nat} (h : SplitsInto (text.take offset) lines rest) :
    TraceDebug.positionIn text offset = ⟨lines.count 10, rest.length⟩ := by
  simp only [TraceDebug.positionIn, h.count_eq, h.reverse_takeWhile, List.length_reverse]

end SplitsInto

theorem lt_of_mem_breaksFrom {base stop : Nat} {text : List UInt8}
    (mem : stop ∈ breaksFrom base text) : base < stop := by
  induction text generalizing base with
  | nil => cases mem
  | cons b rest ih =>
    unfold breaksFrom at mem
    split at mem
    · rcases List.mem_cons.mp mem with rfl | mem
      · exact Nat.lt_succ_self base
      · exact Nat.lt_of_succ_lt (ih mem)
    · exact Nat.lt_of_succ_lt (ih mem)

/-- All line breaks of a text are behind its start. -/
theorem takeWhile_breaksFrom_eq_nil {base offset : Nat} (text : List UInt8)
    (lower : offset ≤ base) : (breaksFrom base text).takeWhile (· ≤ offset) = [] := by
  apply List.takeWhile_eq_nil_iff.mpr
  intro inside
  have later := lt_of_mem_breaksFrom (List.get_mem _ ⟨0, inside⟩)
  simp only [decide_eq_true_eq]
  omega

/-- The lines that start up to an offset, found behind a part of the text that was read. -/
theorem exists_split_breaksFrom {done lines rest text : List UInt8} {offset : Nat}
    (split : SplitsInto done lines rest) (lower : done.length ≤ offset)
    (upper : offset ≤ done.length + text.length) :
    ∃ lines' rest', SplitsInto ((done ++ text).take offset) lines' rest' ∧
      let more := ((breaksFrom done.length text).takeWhile (· ≤ offset)).length
      lines'.count 10 = lines.count 10 + more ∧
        (lines.length :: breaksFrom done.length text)[more]? = some lines'.length := by
  -- What is read moves byte by byte from `text` to `done`, until it reaches the offset.
  induction text generalizing done lines rest with
  | nil =>
    refine ⟨lines, rest, ?_, rfl, rfl⟩
    rw [List.append_nil, List.take_of_length_le lower]
    exact split
  | cons b text ih =>
    by_cases here : offset = done.length
    · refine ⟨lines, rest, ?_, ?_⟩
      · rw [here, List.take_left]
        exact split
      · simp [takeWhile_breaksFrom_eq_nil (b :: text) (Nat.le_of_eq here)]
    · have next : (done ++ [b]).length = done.length + 1 := by simp
      have room : (done ++ [b]).length + text.length = done.length + (b :: text).length := by
        simp only [List.length_append, List.length_cons, List.length_nil]
        omega
      have joined : done ++ [b] ++ text = done ++ b :: text := by simp
      by_cases isBreak : b = 10
      · subst isBreak
        obtain ⟨lines', rest', split', counted, placed⟩ :=
          ih (.lineBreak done) (by omega) (by omega)
        rw [joined] at split'
        refine ⟨lines', rest', split', ?_⟩
        have passed : done.length + 1 ≤ offset := by omega
        rw [next] at counted placed
        simp only [breaksFrom, if_true, List.takeWhile_cons, decide_eq_true passed,
          List.length_cons]
        refine ⟨?_, ?_⟩
        · rw [counted, List.count_append, split.count_eq]
          simp only [List.count_singleton_self]
          omega
        · simpa using placed
      · obtain ⟨lines', rest', split', counted, placed⟩ :=
          ih (split.byte isBreak) (by omega) (by omega)
        rw [joined] at split'
        rw [next] at counted placed
        refine ⟨lines', rest', split', ?_⟩
        simp only [breaksFrom, if_neg isBreak]
        exact ⟨counted, placed⟩

theorem SourceFile.positionAt_lineStarts (s : SourceFile) {offset : Nat}
    (inside : offset ≤ s.size) :
    positionAt s.lineStarts offset = .ok (positionIn s.bytes offset) := by
  have upper : offset ≤ ([] : List UInt8).length + s.bytes.length := by
    simpa [SourceFile.size] using inside
  obtain ⟨lines, rest, split, counted, placed⟩ :=
    exists_split_breaksFrom .empty (Nat.zero_le offset) upper
  rw [List.nil_append] at split
  have length : lines.length + rest.length = offset := split.length_add inside
  have line : (s.lineStarts.takeWhile (· ≤ offset)).length - 1 = lines.count 10 := by
    simpa [SourceFile.lineStarts] using counted.symm
  have start : Checked.get s.lineStarts (lines.count 10) = .ok lines.length := by
    apply Checked.get_eq_ok.mpr
    rw [← line]
    simpa [SourceFile.lineStarts] using placed
  have column : Checked.sub offset lines.length = .ok rest.length :=
    Checked.sub_eq_ok.mpr ⟨by omega, by omega⟩
  rw [split.positionIn]
  simp only [positionAt, line, start, column, bind, Except.bind, pure, Except.pure]

namespace SourceRange

variable (range : SourceRange)

theorem stop_eq_ok (addressable : range.offset + range.length < wordLimit) :
    range.stop = .ok (range.offset + range.length) :=
  Checked.add_eq_ok.mpr ⟨addressable, rfl⟩

/-- The span of a range inside a text. -/
def spanIn (text : List UInt8) (range : SourceRange) : Span :=
  ⟨positionIn text range.offset, positionIn text (range.offset + range.length)⟩

/-- A range inside a source file has a span, whose ends are at their right positions. -/
theorem convert_of_le (s : SourceFile) (addressable : range.offset + range.length < wordLimit)
    (inside : range.offset + range.length ≤ s.size) :
    lineBreakConverter.convert s range = .ok (some (range.spanIn s.bytes)) := by
  have first := s.positionAt_lineStarts (Nat.le_trans (Nat.le_add_right _ _) inside)
  have last := s.positionAt_lineStarts inside
  simp only [lineBreakConverter, stop_eq_ok range addressable, bind, Except.bind,
    if_neg (Nat.not_lt.mpr inside), first, last, pure, Except.pure, spanIn]

theorem convert_of_lt (s : SourceFile) (addressable : range.offset + range.length < wordLimit)
    (outside : s.size < range.offset + range.length) :
    lineBreakConverter.convert s range = .ok none := by
  simp only [lineBreakConverter, stop_eq_ok range addressable, bind, Except.bind,
    if_pos outside, pure, Except.pure]

end SourceRange

end TraceDebug

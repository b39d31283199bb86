import Mathlib.Data.Prod.Lex
import TraceDebug.Proofs.Source.Position

/-!
# Offsets and their positions

The position of an offset names the line that holds it and how far behind the start of the
line it is. So the offset can be read back from its position, and positions come in the
order of their offsets.
-/

namespace TraceDebug

/-- Positions are ordered by line, and in a line by column. -/
def LineColumn.key (p : LineColumn) : ℕ ×ₗ ℕ := toLex (p.line, p.column)

/-- As many line breaks stand before the offset as the position says, and the offset lies in
the line that they lead to, as far behind its start as the position says. -/
structure LineColumn.Marks (p : LineColumn) (s : SourceFile) (offset : Nat) : Prop where
  line : p.line = (s.bytes.take offset).count 10
  column : ∃ start, s.lineStarts[p.line]? = some start ∧ start + p.column = offset
  before : ∀ next, s.lineStarts[p.line + 1]? = some next → offset < next

namespace SourceFile

def offsetOf? (s : SourceFile) (p : LineColumn) : Option Nat :=
  (s.lineStarts[p.line]?).map (· + p.column)

theorem pairwise_breaksFrom (base : Nat) (text : List UInt8) :
    (breaksFrom base text).Pairwise (· < ·) := by
  induction text generalizing base with
  | nil => exact .nil
  | cons b rest ih =>
    unfold breaksFrom
    split
    · exact List.pairwise_cons.mpr ⟨fun _ mem => lt_of_mem_breaksFrom mem, ih (base + 1)⟩
    · exact ih (base + 1)

theorem pairwise_lineStarts (s : SourceFile) : s.lineStarts.Pairwise (· < ·) :=
  List.pairwise_cons.mpr ⟨fun _ mem => lt_of_mem_breaksFrom mem, pairwise_breaksFrom 0 s.bytes⟩

end SourceFile

namespace LineColumn.Marks

variable {s : SourceFile} {p q : LineColumn} {offset o₁ o₂ : Nat}

theorem offsetOf? (h : p.Marks s offset) : s.offsetOf? p = some offset := by
  obtain ⟨start, placed, sum⟩ := h.column
  rw [SourceFile.offsetOf?, placed, Option.map_some, sum]

theorem injective (first : p.Marks s o₁) (second : p.Marks s o₂) : o₁ = o₂ :=
  Option.some.inj (first.offsetOf?.symm.trans second.offsetOf?)

theorem unique (first : p.Marks s offset) (second : q.Marks s offset) : p = q := by
  obtain ⟨line, column⟩ := p
  obtain ⟨line', column'⟩ := q
  obtain rfl : line = line' := first.line.trans second.line.symm
  obtain ⟨start, placed, sum⟩ := first.column
  obtain ⟨start', placed', sum'⟩ := second.column
  obtain rfl : start = start' := Option.some.inj (placed.symm.trans placed')
  exact congrArg (LineColumn.mk line) (Nat.add_left_cancel (sum.trans sum'.symm))

theorem key_lt (first : p.Marks s o₁) (second : q.Marks s o₂) (lt : o₁ < o₂) : p.key < q.key := by
  have lines : p.line ≤ q.line := by
    rw [first.line, second.line]
    exact (List.take_sublist_take_left (Nat.le_of_lt lt)).count_le 10
  apply Prod.Lex.toLex_lt_toLex.mpr
  rcases Nat.lt_or_eq_of_le lines with above | same
  · exact .inl above
  · obtain ⟨start, placed, sum⟩ := first.column
    obtain ⟨start', placed', sum'⟩ := second.column
    rw [same] at placed
    obtain rfl : start = start' := Option.some.inj (placed.symm.trans placed')
    exact .inr ⟨same, by omega⟩

theorem lt_iff_key_lt (first : p.Marks s o₁) (second : q.Marks s o₂) :
    o₁ < o₂ ↔ p.key < q.key := by
  refine ⟨first.key_lt second, fun lt => ?_⟩
  rcases Nat.lt_trichotomy o₁ o₂ with earlier | rfl | later
  · exact earlier
  · rw [first.unique second] at lt
    exact absurd lt (lt_irrefl _)
  · exact absurd lt (lt_asymm (second.key_lt first later))

theorem key_le (first : p.Marks s o₁) (second : q.Marks s o₂) (le : o₁ ≤ o₂) : p.key ≤ q.key := by
  apply le_of_not_gt
  intro lt
  exact Nat.not_lt.mpr le ((second.lt_iff_key_lt first).mpr lt)

end LineColumn.Marks

/-- The search for the starts up to an offset ends at the first one behind it. -/
theorem lt_of_getElem?_takeWhile {starts : List Nat} {offset next : Nat}
    (listed : starts[(starts.takeWhile (· ≤ offset)).length]? = some next) : offset < next := by
  induction starts with
  | nil => simp at listed
  | cons start rest ih =>
    by_cases passed : start ≤ offset
    · simp only [List.takeWhile_cons, decide_eq_true passed, if_true, List.length_cons,
        List.getElem?_cons_succ] at listed
      exact ih listed
    · simp only [List.takeWhile_cons, decide_eq_false passed, Bool.false_eq_true, if_false,
        List.length_nil, List.getElem?_cons_zero, Option.some.injEq] at listed
      exact listed ▸ Nat.lt_of_not_le passed

theorem marks_of_positionAt {s : SourceFile} {offset : Nat} (inside : offset ≤ s.size)
    {p : LineColumn} (found : positionAt s.lineStarts offset = .ok p) : p.Marks s offset := by
  have counted := Except.ok.inj (found.symm.trans (s.positionAt_lineStarts inside))
  obtain ⟨start, placed, found⟩ := Checked.bind_eq_ok.mp found
  obtain ⟨column, difference, found⟩ := Checked.bind_eq_ok.mp found
  obtain ⟨behind, rfl⟩ := Checked.sub_eq_ok.mp difference
  cases found
  refine ⟨congrArg LineColumn.line counted, ⟨start, ?_, Nat.add_sub_of_le behind⟩, ?_⟩
  · exact Checked.get_eq_ok.mp placed
  · intro next listed
    -- The first line starts at zero, so the search passes one start at least.
    have passed : (s.lineStarts.takeWhile (· ≤ offset)).length - 1 + 1 =
        (s.lineStarts.takeWhile (· ≤ offset)).length := by simp [SourceFile.lineStarts]
    rw [passed] at listed
    exact lt_of_getElem?_takeWhile listed

theorem exists_marks {s : SourceFile} {offset : Nat} (inside : offset ≤ s.size) :
    ∃ p, positionAt s.lineStarts offset = .ok p ∧ p.Marks s offset :=
  ⟨_, s.positionAt_lineStarts inside, marks_of_positionAt inside (s.positionAt_lineStarts inside)⟩

/-- The ends of a span are the positions of the ends of a range. -/
structure Span.Covers (span : Span) (s : SourceFile) (range : SourceRange) : Prop where
  start : span.start.Marks s range.offset
  stop : span.stop.Marks s (range.offset + range.length)
  ordered : span.start.key ≤ span.stop.key

theorem exists_convert_covers {s : SourceFile} (addressable : s.size < wordLimit)
    {range : SourceRange} (inside : range.offset + range.length ≤ s.size) :
    ∃ span, lineBreakConverter.convert s range = .ok (some span) ∧ span.Covers s range := by
  have inside' : range.offset ≤ s.size := Nat.le_trans (Nat.le_add_right _ _) inside
  have start := marks_of_positionAt inside' (s.positionAt_lineStarts inside')
  have stop := marks_of_positionAt inside (s.positionAt_lineStarts inside)
  have converted := range.convert_of_le s (Nat.lt_of_le_of_lt inside addressable) inside
  exact ⟨_, converted, start, stop, start.key_le stop (Nat.le_add_right _ _)⟩

/-- Every range inside a source file has a span with exact ends. Positions come in the order
of their offsets, and each tells its offset. -/
theorem positions_tell_offsets (s : SourceFile) (addressable : s.size < wordLimit) :
    (∀ range : SourceRange, range.offset + range.length ≤ s.size →
      ∃ span, lineBreakConverter.convert s range = .ok (some span) ∧ span.Covers s range) ∧
    (∀ offset ≤ s.size, ∃ p, positionAt s.lineStarts offset = .ok p ∧ p.Marks s offset ∧
      s.offsetOf? p = some offset) ∧
    (∀ o₁ ≤ s.size, ∀ o₂ ≤ s.size, ∀ p₁ p₂, positionAt s.lineStarts o₁ = .ok p₁ →
      positionAt s.lineStarts o₂ = .ok p₂ →
        (o₁ < o₂ ↔ p₁.key < p₂.key) ∧ (p₁ = p₂ → o₁ = o₂)) ∧
    s.lineStarts.Pairwise (· < ·) := by
  refine ⟨fun range inside => exists_convert_covers addressable inside, ?_, ?_,
    s.pairwise_lineStarts⟩
  · intro offset inside
    obtain ⟨p, found, marks⟩ := exists_marks inside
    exact ⟨p, found, marks, marks.offsetOf?⟩
  · intro o₁ inside₁ o₂ inside₂ p₁ p₂ found₁ found₂
    have marks₁ := marks_of_positionAt inside₁ found₁
    have marks₂ := marks_of_positionAt inside₂ found₂
    refine ⟨marks₁.lt_iff_key_lt marks₂, ?_⟩
    rintro rfl
    exact marks₁.injective marks₂

/-- A text with an empty line, whose last line has only just begun. -/
def fourLines : SourceFile := ⟨⟨"a.sol"⟩, "ab\ncd\n\n"⟩

/-- From the first line break to the end of the text; the break is in the line that it ends. -/
theorem fourLines_told :
    fourLines.size < wordLimit ∧ (⟨2, 5⟩ : SourceRange).offset + 5 ≤ fourLines.size ∧
      (⟨⟨0, 2⟩, ⟨3, 0⟩⟩ : Span).Covers fourLines ⟨2, 5⟩ ∧
      lineBreakConverter.convert fourLines ⟨2, 5⟩ = .ok (some ⟨⟨0, 2⟩, ⟨3, 0⟩⟩) ∧
      fourLines.offsetOf? ⟨2, 0⟩ = some 6 ∧
      (⟨0, 2⟩ : LineColumn).key < (⟨1, 0⟩ : LineColumn).key := by
  have addressable : fourLines.size < wordLimit := by decide +kernel
  have inside : 2 + 5 ≤ fourLines.size := by decide +kernel
  have converted : lineBreakConverter.convert fourLines ⟨2, 5⟩ =
      .ok (some ⟨⟨0, 2⟩, ⟨3, 0⟩⟩) := by decide +kernel
  obtain ⟨spans, positions, ordered, -⟩ := positions_tell_offsets fourLines addressable
  obtain ⟨span, known, covers⟩ := spans ⟨2, 5⟩ inside
  obtain rfl := Option.some.inj (Except.ok.inj (known.symm.trans converted))
  obtain ⟨p, found, -, told⟩ := positions 6 (Nat.le_trans (by decide) inside)
  have sixth : positionAt fourLines.lineStarts 6 = .ok ⟨2, 0⟩ := by decide +kernel
  obtain rfl := Except.ok.inj (found.symm.trans sixth)
  have after := (ordered 2 (Nat.le_trans (by decide) inside) 3 (Nat.le_trans (by decide) inside)
    ⟨0, 2⟩ ⟨1, 0⟩ (by decide +kernel) (by decide +kernel)).1
  exact ⟨addressable, inside, covers, converted, told, after.mp (by decide)⟩

end TraceDebug

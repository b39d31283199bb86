import TraceDebug.Proofs.Source.Bounds
import TraceDebug.Proofs.Source.Entry
import TraceDebug.Proofs.Source.Offsets
import TraceDebug.Source.RowEntry

/-!
# Rows and their entries

A line break ends every row of a text but the last. The entry of a row leads back to the row
and covers it up to the line break. For the last row an entry takes one byte off all the same:
the row loses its last byte, and where it has none there is no entry.
-/

namespace TraceDebug

/-- The bytes of the rows, without their line breaks. -/
def SourceFile.rows (s : SourceFile) : List (List UInt8) := s.bytes.splitOn 10

/-- A row of a text with its number: what stands before it, its bytes, and what stands behind
them. -/
structure RowAt (text before line after : List UInt8) (row : Nat) : Prop where
  append : before ++ line ++ after = text
  split : SplitsInto (before ++ line) before line
  number : before.count 10 = row
  ended : after = [] ∨ ∃ rest, after = 10 :: rest

theorem RowAt.first {line after : List UInt8} (sameLine : 10 ∉ line)
    (ended : after = [] ∨ ∃ rest, after = 10 :: rest) : RowAt (line ++ after) [] line after 0 :=
  ⟨rfl, ⟨rfl, .inl rfl, sameLine⟩, rfl, ended⟩

theorem RowAt.next {text before line after first : List UInt8} {row : Nat}
    (h : RowAt text before line after row) (sameLine : 10 ∉ first) :
    RowAt (first ++ 10 :: text) (first ++ 10 :: before) line after (row + 1) := by
  refine ⟨?_, ⟨rfl, .inr ?_, h.split.sameLine⟩, ?_, h.ended⟩
  · rw [← h.append]
    simp only [List.append_assoc, List.cons_append]
  · rcases h.split.whole with rfl | last
    · simp
    · rw [List.getLast?_append, List.getLast?_cons, last]
      rfl
  · rw [List.count_append, List.count_cons_self, h.number, List.count_eq_zero_of_not_mem sameLine,
      Nat.zero_add]

theorem exists_rowAt {text line : List UInt8} {row : Nat}
    (listed : (text.splitOn 10)[row]? = some line) :
    ∃ before after, RowAt text before line after row := by
  induction row generalizing text with
  | zero =>
    by_cases mem : 10 ∈ text
    · obtain ⟨first, rest, rfl, sameLine⟩ := List.eq_append_cons_of_mem mem
      rw [List.splitOn_append_cons_self_of_not_mem sameLine] at listed
      cases listed
      exact ⟨[], _, .first sameLine (.inr ⟨rest, rfl⟩)⟩
    · rw [List.splitOn_eq_singleton mem] at listed
      cases listed
      refine ⟨[], [], ?_⟩
      simpa using RowAt.first mem (.inl rfl)
  | succ row ih =>
    by_cases mem : 10 ∈ text
    · obtain ⟨first, rest, rfl, sameLine⟩ := List.eq_append_cons_of_mem mem
      rw [List.splitOn_append_cons_self_of_not_mem sameLine] at listed
      obtain ⟨before, after, found⟩ := ih listed
      exact ⟨_, after, found.next sameLine⟩
    · rw [List.splitOn_eq_singleton mem] at listed
      cases listed

theorem length_splitOn (text : List UInt8) : (text.splitOn 10).length = text.count 10 + 1 := by
  induction text with
  | nil => rfl
  | cons b rest ih =>
    rw [List.splitOn_cons_eq_if_modifyHead]
    split
    · next isBreak =>
      rw [List.length_cons, ih, eq_of_beq isBreak, List.count_cons_self]
    · next other =>
      have notBreak : b ≠ 10 := fun isBreak => other (beq_iff_eq.mpr isBreak)
      rw [List.length_modifyHead, ih, List.count_cons_of_ne notBreak]

theorem length_breaksFrom (base : Nat) (text : List UInt8) :
    (breaksFrom base text).length = text.count 10 := by
  induction text generalizing base with
  | nil => rfl
  | cons b rest ih =>
    unfold breaksFrom
    split
    · next isBreak => rw [isBreak, List.length_cons, ih, List.count_cons_self]
    · next other => rw [ih, List.count_cons_of_ne other]

theorem SourceFile.length_rows (s : SourceFile) : s.rows.length = s.lineStarts.length := by
  rw [rows, lineStarts, length_splitOn, List.length_cons, length_breaksFrom]

/-- Whole lines in front of an offset end where the next line starts. -/
theorem SplitsInto.lineStart {s : SourceFile} {lines rest : List UInt8} {offset : Nat}
    (h : SplitsInto (s.bytes.take offset) lines rest) (inside : offset ≤ s.size) :
    s.lineStarts[lines.count 10]? = some lines.length := by
  obtain ⟨p, found, marks⟩ := exists_marks inside
  have counted := found.symm.trans (s.positionAt_lineStarts inside)
  rw [h.positionIn] at counted
  cases counted
  obtain ⟨start, placed, sum⟩ := marks.column
  rw [placed, Nat.add_right_cancel (sum.trans (h.length_add inside).symm)]

namespace RowAt

section
variable {text before line after : List UInt8} {row width : Nat}

theorem splitsInto_take (h : RowAt text before line after row) (inside : width ≤ line.length) :
    SplitsInto (text.take (before.length + width)) before (line.take width) := by
  refine ⟨?_, h.split.whole, fun mem => h.split.sameLine (List.mem_of_mem_take mem)⟩
  rw [← h.append, List.append_assoc, List.take_length_add_append,
    List.take_append_of_le_length inside]

theorem positionIn_eq (h : RowAt text before line after row) (inside : width ≤ line.length) :
    positionIn text (before.length + width) = ⟨row, width⟩ := by
  rw [(h.splitsInto_take inside).positionIn, h.number, List.length_take, Nat.min_eq_left inside]

theorem length_eq (h : RowAt text before line after row) :
    before.length + line.length + after.length = text.length := by
  rw [← h.append, List.length_append, List.length_append]

theorem count_eq (h : RowAt text before line after row) : row + after.count 10 = text.count 10 := by
  rw [← h.append, List.count_append, h.split.count_eq, h.number]

end

variable {s : SourceFile} {before line after : List UInt8} {row : Nat}

theorem last_iff (h : RowAt s.bytes before line after row) :
    after = [] ↔ row + 1 = s.rows.length := by
  rw [SourceFile.rows, length_splitOn, ← h.count_eq]
  rcases h.ended with rfl | ⟨rest, rfl⟩
  · simp
  · simp only [List.count_cons_self, reduceCtorEq, false_iff]
    omega

theorem lineStart (h : RowAt s.bytes before line after row) :
    s.lineStarts[row]? = some before.length := by
  have bounded := h.length_eq
  have placed := (h.splitsInto_take (Nat.zero_le _)).lineStart
    (Nat.le_trans (by omega) (Nat.le_of_eq bounded))
  rwa [h.number] at placed

theorem next_lineStart {rest : List UInt8} (h : RowAt s.bytes before line (10 :: rest) row) :
    s.lineStarts[row + 1]? = some (before.length + (line.length + 1)) := by
  have bounded := h.length_eq
  rw [List.length_cons] at bounded
  have inside : before.length + line.length + 1 ≤ s.size := by
    rw [SourceFile.size]
    omega
  have taken : s.bytes.take (before.length + line.length + 1) = before ++ line ++ [10] := by
    rw [← h.append, ← List.length_append, List.take_length_add_append]
    rfl
  have whole : SplitsInto (s.bytes.take (before.length + line.length + 1))
      (before ++ line ++ [10]) [] := by
    rw [taken]
    exact .lineBreak _
  have number : (before ++ line ++ [10]).count 10 = row + 1 := by
    rw [List.count_append, h.split.count_eq, h.number]
    rfl
  have placed := whole.lineStart inside
  rw [number] at placed
  rw [placed, List.length_append, List.length_append, Nat.add_assoc]
  rfl

/-- Where the next row starts or, behind the last row, the text ends. -/
theorem stop_eq (h : RowAt s.bytes before line after row) :
    s.lineStarts[row + 1]?.getD s.size = before.length + (line.length + (after.take 1).length) := by
  rcases h.ended with rfl | ⟨rest, rfl⟩
  · have last : s.lineStarts.length = row + 1 := by rw [← s.length_rows, ← h.last_iff.mp rfl]
    rw [List.getElem?_eq_none (Nat.le_of_eq last), Option.getD_none, SourceFile.size,
      ← h.length_eq, Nat.add_assoc]
    rfl
  · rw [h.next_lineStart, Option.getD_some]
    rfl

theorem rowEntry_eq (h : RowAt s.bytes before line after row) (file : Nat) :
    s.rowEntry row file = (Checked.sub (line.length + (after.take 1).length) 1).map fun width =>
      s!"{before.length}:{width}:{file}" := by
  have start : Checked.get s.lineStarts row = .ok before.length :=
    Checked.get_eq_ok.mpr h.lineStart
  have length : Checked.sub (before.length + (line.length + (after.take 1).length)) before.length =
      .ok (line.length + (after.take 1).length) :=
    Checked.sub_eq_ok.mpr ⟨Nat.le_add_right _ _, Nat.add_sub_cancel_left ..⟩
  simp only [SourceFile.rowEntry, start, h.stop_eq, bind, Except.bind, length]
  cases Checked.sub (line.length + (after.take 1).length) 1 <;> rfl

end RowAt

/-- From the start of a row to a byte of it. -/
def rowSpan (row width : Nat) : Span := ⟨⟨row, 0⟩, ⟨row, width⟩⟩

/-- As a source map, the entry has one element, which leads to a file and to a span of it. -/
def SourceFile.MapsTo (s : SourceFile) (reader : MapReader) (entry : String) (file : Nat)
    (span : Span) : Prop :=
  ∃ element, reader.read entry = .ok [element] ∧ element.file = some file ∧
    lineBreakConverter.convert s ⟨element.offset, element.length⟩ = .ok (some span)

section
variable {s : SourceFile} {reader : MapReader}

theorem SourceFile.MapsTo.span_eq {entry : String} {file file' : Nat} {span span' : Span}
    (h : s.MapsTo reader entry file span) (h' : s.MapsTo reader entry file' span') :
    span = span' := by
  obtain ⟨element, read, -, converted⟩ := h
  obtain ⟨element', read', -, converted'⟩ := h'
  cases read.symm.trans read'
  exact Option.some.inj (Except.ok.inj (converted.symm.trans converted'))

/-- The row has an entry, and it leads to the first bytes of the row. -/
def SourceFile.EntryCovers (s : SourceFile) (reader : MapReader) (row file width : Nat) : Prop :=
  ∃ entry, s.rowEntry row file = .ok entry ∧ s.MapsTo reader entry file (rowSpan row width)

theorem SourceFile.EntryCovers.width_eq {row file width width' : Nat}
    (h : s.EntryCovers reader row file width) (h' : s.EntryCovers reader row file width') :
    width = width' := by
  obtain ⟨entry, made, leads⟩ := h
  obtain ⟨entry', made', leads'⟩ := h'
  cases made.symm.trans made'
  exact congrArg (·.stop.column) (leads.span_eq leads')

end

namespace RowAt

section
variable {s : SourceFile} {before line after rest : List UInt8} {row width file : Nat}
  {reader : MapReader} (reads : reader.ReadsEntries) (offset : SourceMap.Narrow before.length)
  (length : SourceMap.Narrow line.length) (index : file ≤ 2147483647)
include reads offset length index

theorem mapsTo (h : RowAt s.bytes before line after row) (inside : width ≤ line.length) :
    s.MapsTo reader s!"{before.length}:{width}:{file}" file (rowSpan row width) := by
  have narrow : SourceMap.Narrow width := Nat.lt_of_le_of_lt inside length
  have read := reads before.length width file offset narrow index
  have decides : lineBreakConverter.Decides s ⟨before.length, width⟩ :=
    SourceRange.decides s (offset.add_lt narrow)
  have bounded : before.length + width ≤ s.size := by
    rw [SourceFile.size, ← h.length_eq]
    omega
  have covered : SourceRange.spanIn s.bytes ⟨before.length, width⟩ = rowSpan row width :=
    congrArg₂ Span.mk (h.positionIn_eq (Nat.zero_le _)) (h.positionIn_eq inside)
  exact ⟨_, read, rfl, covered ▸ decides.inside bounded⟩

theorem entryCovers (h : RowAt s.bytes before line after row)
    (made : Checked.sub (line.length + (after.take 1).length) 1 = .ok width)
    (inside : width ≤ line.length) : s.EntryCovers reader row file width := by
  refine ⟨_, ?_, h.mapsTo reads offset length index inside⟩
  rw [h.rowEntry_eq, made]
  rfl

theorem entryCovers_of_break (h : RowAt s.bytes before line (10 :: rest) row) :
    s.EntryCovers reader row file line.length :=
  h.entryCovers reads offset length index (Checked.sub_eq_ok.mpr ⟨Nat.le_add_left _ _, rfl⟩)
    (Nat.le_refl _)

theorem entryCovers_of_end (h : RowAt s.bytes before line [] row) (some : line ≠ []) :
    s.EntryCovers reader row file (line.length - 1) :=
  h.entryCovers reads offset length index
    (Checked.sub_eq_ok.mpr ⟨List.length_pos_iff.mpr some, rfl⟩) (Nat.sub_le _ _)

end

variable {s : SourceFile} {before line : List UInt8} {row file : Nat}

theorem rowEntry_of_end (h : RowAt s.bytes before [] [] row) :
    s.rowEntry row file = .error .differenceUnderflow := by
  rw [h.rowEntry_eq]
  rfl

theorem not_entryCovers_of_end {reader : MapReader} (reads : reader.ReadsEntries)
    (offset : SourceMap.Narrow before.length) (length : SourceMap.Narrow line.length)
    (index : file ≤ 2147483647)
    (h : RowAt s.bytes before line [] row) : ¬ s.EntryCovers reader row file line.length := by
  intro covers
  by_cases none : line = []
  · subst none
    obtain ⟨entry, made, -⟩ := covers
    cases made.symm.trans h.rowEntry_of_end
  · have width := covers.width_eq (h.entryCovers_of_end reads offset length index none)
    have some := List.length_pos_iff.mpr none
    omega

end RowAt

/-- The entry of a row leads back to the row and covers it, up to the line break, if and only
if a line break ends the row. For the last row one byte is taken off all the same: the entry
covers the row without its last byte, and for an empty row the difference fails. -/
theorem entry_covers_row_iff_ended {reader : MapReader} (reads : reader.ReadsEntries)
    (s : SourceFile) {row file : Nat} {line : List UInt8}
    (listed : s.rows[row]? = some line)
    (offset : ∀ start, s.lineStarts[row]? = some start → SourceMap.Narrow start)
    (length : SourceMap.Narrow line.length) (index : file ≤ 2147483647) :
    (s.EntryCovers reader row file line.length ↔ row + 1 < s.rows.length) ∧
      (row + 1 = s.rows.length → line ≠ [] → s.EntryCovers reader row file (line.length - 1)) ∧
      (row + 1 = s.rows.length → line = [] →
        s.rowEntry row file = .error .differenceUnderflow) := by
  obtain ⟨before, after, h⟩ := exists_rowAt listed
  have inside : row < s.rows.length := (List.getElem?_eq_some_iff.mp listed).1
  have offset := offset _ h.lineStart
  rcases h.ended with rfl | ⟨rest, rfl⟩
  · have last : row + 1 = s.rows.length := h.last_iff.mp rfl
    refine ⟨iff_of_false (h.not_entryCovers_of_end reads offset length index) (by omega),
      fun _ some => h.entryCovers_of_end reads offset length index some, ?_⟩
    rintro - rfl
    exact h.rowEntry_of_end
  · have notLast : row + 1 ≠ s.rows.length := fun last =>
      List.cons_ne_nil _ _ (h.last_iff.mpr last)
    exact ⟨iff_of_true (h.entryCovers_of_break reads offset length index) (by omega),
      fun last => absurd last notLast, fun last => absurd last notLast⟩

/-- A text with an empty row, which ends without a line break. -/
def threeRows : SourceFile := ⟨⟨"x.sol"⟩, "ab\n\ncd"⟩

/-- The rows that line breaks end are covered, and the last one loses a byte. An empty last row,
as it stands in `fourLines`, has no entry. -/
theorem threeRows_covered :
    compressedReader.ReadsEntries ∧ threeRows.rows = [[97, 98], [], [99, 100]] ∧
      threeRows.EntryCovers compressedReader 0 7 2 ∧
      threeRows.EntryCovers compressedReader 1 7 0 ∧
      ¬ threeRows.EntryCovers compressedReader 2 7 2 ∧
      threeRows.EntryCovers compressedReader 2 7 1 ∧
      fourLines.rows = [[97, 98], [99, 100], [], []] ∧
      fourLines.rowEntry 3 7 = .error .differenceUnderflow := by
  have reads := compressedReader_readsEntries
  have rows : threeRows.rows = [[97, 98], [], [99, 100]] := by decide +kernel
  have rows' : fourLines.rows = [[97, 98], [99, 100], [], []] := by decide +kernel
  have early : ∀ start ∈ threeRows.lineStarts, start < 4294967296 := by decide +kernel
  have early' : ∀ start ∈ fourLines.lineStarts, start < 4294967296 := by decide +kernel
  have offset (row start : Nat) (placed : threeRows.lineStarts[row]? = some start) :
      SourceMap.Narrow start := early start (List.mem_of_getElem? placed)
  have offset' (start : Nat) (placed : fourLines.lineStarts[3]? = some start) :
      SourceMap.Narrow start := early' start (List.mem_of_getElem? placed)
  have narrow (n : Nat) (small : n ≤ 2) : SourceMap.Narrow n :=
    Nat.lt_of_le_of_lt small (by decide)
  have index : 7 ≤ 2147483647 := by decide
  have listed : threeRows.rows[2]? = some [99, 100] := by rw [rows]; rfl
  obtain ⟨first, -⟩ := entry_covers_row_iff_ended reads threeRows
    (by rw [rows]; rfl : threeRows.rows[0]? = some [97, 98]) (offset 0) (narrow 2 (by decide)) index
  obtain ⟨second, -⟩ := entry_covers_row_iff_ended reads threeRows
    (by rw [rows]; rfl : threeRows.rows[1]? = some []) (offset 1) (narrow 0 (by decide)) index
  obtain ⟨third, cut, -⟩ :=
    entry_covers_row_iff_ended reads threeRows listed (offset 2) (narrow 2 (by decide)) index
  obtain ⟨-, -, failed⟩ := entry_covers_row_iff_ended reads fourLines
    (by rw [rows']; rfl : fourLines.rows[3]? = some []) offset' (narrow 0 (by decide)) index
  rw [rows] at first second third cut
  rw [rows'] at failed
  refine ⟨reads, rows, first.mpr (by decide), second.mpr (by decide), ?_, cut rfl nofun, rows',
    failed rfl rfl⟩
  intro covered
  exact absurd (third.mp covered) (by decide)

end TraceDebug

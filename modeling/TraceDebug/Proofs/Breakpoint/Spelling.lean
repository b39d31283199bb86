import TraceDebug.Breakpoint
import TraceDebug.Proofs.Text

/-!
# Breakpoints as text

A breakpoint is read from a path and a row with a colon between them, the last one of the
text, and with blanks around each of the two. What is written for a breakpoint is such a
text, whatever colons and blanks the path has inside, and no two breakpoints are written in
the same way.
-/

namespace TraceDebug

namespace Breakpoint

/-- The text is the path of the breakpoint, a colon, and its row, blanks aside. -/
def SpelledBy (b : Breakpoint) (text : String) : Prop :=
  ∃ core left right row, Text.Trims text.toList core ∧ core = left ++ ':' :: right ∧ ':' ∉ right ∧
    Text.Trims left b.file.text.toList ∧ b.file.text.toList ≠ [] ∧
    Text.Trims right row ∧ Text.SpellsWord row b.row

/-- The path is not empty and has no blanks at its ends, and the row is a word. -/
structure Printable (b : Breakpoint) : Prop where
  nonempty : b.file.text.toList ≠ []
  first : ∀ c, b.file.text.toList.head? = some c → Text.isBlank c = false
  last : ∀ c, b.file.text.toList.getLast? = some c → Text.isBlank c = false
  word : b.row < wordLimit

theorem not_mem_of_splitLast {c : Char} {text : List Char} (none : splitLast c text = none) :
    c ∉ text := by
  induction text with
  | nil => exact List.not_mem_nil
  | cons d rest ih =>
    rw [splitLast] at none
    cases later : splitLast c rest with
    | some parts =>
      rw [later] at none
      cases none
    | none =>
      rw [later] at none
      by_cases here : d = c
      · simp [here] at none
      · exact List.not_mem_cons_of_ne_of_not_mem (Ne.symm here) (ih later)

theorem splitLast_of_not_mem {c : Char} {text : List Char} (absent : c ∉ text) :
    splitLast c text = none := by
  induction text with
  | nil => rfl
  | cons d rest ih =>
    obtain ⟨other, later⟩ := List.ne_and_not_mem_of_not_mem_cons absent
    rw [splitLast, ih later]
    exact if_neg (Ne.symm other)

theorem splitLast_append {c : Char} (left : List Char) {right : List Char} (last : c ∉ right) :
    splitLast c (left ++ c :: right) = some (left, right) := by
  induction left with
  | nil => rw [List.nil_append, splitLast, splitLast_of_not_mem last, if_pos rfl]
  | cons d left ih => rw [List.cons_append, splitLast, ih]

theorem append_of_splitLast {c : Char} {text left right : List Char}
    (split : splitLast c text = some (left, right)) : text = left ++ c :: right ∧ c ∉ right := by
  induction text generalizing left with
  | nil => cases split
  | cons d rest ih =>
    rw [splitLast] at split
    cases later : splitLast c rest with
    | some parts =>
      rw [later] at split
      cases split
      obtain ⟨rfl, last⟩ := ih later
      exact ⟨rfl, last⟩
    | none =>
      rw [later] at split
      by_cases here : d = c
      · simp only [here, if_true, Option.some.injEq, Prod.mk.injEq] at split
        obtain ⟨rfl, rfl⟩ := split
        exact ⟨by rw [here, List.nil_append], not_mem_of_splitLast later⟩
      · simp [here] at split

theorem spelledBy_of_parse {text : String} {b : Breakpoint} (read : parse text = .ok b) :
    b.SpelledBy text := by
  unfold parse at read
  split at read
  · cases read
  · next left right split =>
    obtain ⟨parts, last⟩ := append_of_splitLast split
    split at read
    · cases read
    · next some =>
      split at read
      · cases read
      · next row word =>
        cases read
        have path : (String.ofList (Text.trim left)).toList = Text.trim left :=
          String.toList_ofList
        refine ⟨_, left, right, _, Text.trims_trim text.toList, parts, last, ?_, ?_,
          Text.trims_trim right, Text.readWord_eq_ok_iff.mp word⟩
        · rw [path]
          exact Text.trims_trim left
        · rw [path]
          exact some

theorem SpelledBy.parse_eq {text : String} {b : Breakpoint} (h : b.SpelledBy text) :
    parse text = .ok b := by
  obtain ⟨core, left, right, row, trims, rfl, last, path, some, trims', word⟩ := h
  obtain ⟨⟨text'⟩, number⟩ := b
  have read := Text.readWord_eq_ok_iff.mpr word
  unfold parse
  rw [trims.trim_eq, splitLast_append left last]
  dsimp only
  rw [path.trim_eq, trims'.trim_eq]
  dsimp only at some read
  cases chars : text'.toList with
  | nil => exact absurd chars some
  | cons c rest =>
    simp only [read]
    rw [← chars, String.ofList_toList]

theorem parse_eq_ok_iff {text : String} {b : Breakpoint} :
    parse text = .ok b ↔ b.SpelledBy text :=
  ⟨spelledBy_of_parse, SpelledBy.parse_eq⟩

theorem toList_render (b : Breakpoint) :
    b.render.toList = b.file.text.toList ++ ':' :: Nat.toDigits 10 b.row := by
  have row : (toString b.row).toList = Nat.toDigits 10 b.row := by
    rw [Nat.toString_eq_ofList_toDigits, String.toList_ofList]
  have colon : (toString ":").toList = [':'] := rfl
  have path : toString b.file.text = b.file.text := rfl
  simp only [render, String.toList_append, row, colon, path, List.append_assoc,
    List.singleton_append]

theorem SpelledBy.printable {text : String} {b : Breakpoint} (h : b.SpelledBy text) :
    b.Printable := by
  obtain ⟨core, left, right, row, -, -, -, path, some, -, digits, -, -, -, -, word⟩ := h
  exact ⟨some, path.first, path.last, word⟩

theorem Printable.trims_render {b : Breakpoint} (h : b.Printable) :
    Text.Trims b.render.toList b.render.toList := by
  apply Text.Trims.self
  · intro c first
    apply h.first c
    cases path : b.file.text.toList with
    | nil => exact absurd path h.nonempty
    | cons d rest =>
      rw [toList_render, path] at first
      exact first
  · intro c last
    rw [toList_render, List.append_cons, List.getLast?_append] at last
    cases digit : (Nat.toDigits 10 b.row).getLast? with
    | none => exact absurd (List.getLast?_eq_none_iff.mp digit) Nat.toDigits_ne_nil
    | some d =>
      rw [digit] at last
      cases last
      exact Text.isBlank_of_mem_toDigits (List.mem_of_getLast? digit)

theorem Printable.spelledBy_render {b : Breakpoint} (h : b.Printable) : b.SpelledBy b.render := by
  refine ⟨_, _, _, _, h.trims_render, b.toList_render, ?_, Text.Trims.self h.first h.last,
    h.nonempty, Text.Trims.self ?_ ?_, Text.spellsWord_toDigits h.word⟩
  · intro mem
    exact absurd (Nat.isDigit_of_mem_toDigits (by decide) (by decide) mem) (by decide)
  · exact fun c first => Text.isBlank_of_mem_toDigits (List.mem_of_head? first)
  · exact fun c last => Text.isBlank_of_mem_toDigits (List.mem_of_getLast? last)

theorem Printable.parse_render {b : Breakpoint} (h : b.Printable) : parse b.render = .ok b :=
  h.spelledBy_render.parse_eq

theorem Printable.render_injective {a b : Breakpoint} (ha : a.Printable) (hb : b.Printable)
    (same : a.render = b.render) : a = b := by
  have read := ha.parse_render
  rw [same, hb.parse_render] at read
  exact (Except.ok.inj read).symm

/-- A text is read exactly if it spells a breakpoint, and then as this one. What is written
for a breakpoint that was read, or for any with a path and a row that fit, is read as the
same breakpoint. -/
theorem parse_inverts_render :
    (∀ text b, parse text = .ok b ↔ b.SpelledBy text) ∧
    (∀ text b, parse text = .ok b → b.Printable ∧ parse b.render = .ok b) ∧
    (∀ b : Breakpoint, b.Printable → parse b.render = .ok b) ∧
    (∀ a b : Breakpoint, a.Printable → b.Printable → a.render = b.render → a = b) := by
  refine ⟨fun _ _ => parse_eq_ok_iff, ?_, fun _ h => h.parse_render,
    fun _ _ ha hb => ha.render_injective hb⟩
  intro text b read
  have printable := (parse_eq_ok_iff.mp read).printable
  exact ⟨printable, printable.parse_render⟩

/-- The path has a blank inside and ends with what looks like a row and a colon. -/
def rowLikePath : Breakpoint := ⟨⟨"lib: a.sol:7:"⟩, 12⟩

theorem rowLikePath_read :
    rowLikePath.Printable ∧ rowLikePath.SpelledBy " lib: a.sol:7: :\t+0012\n" ∧
      rowLikePath.render = "lib: a.sol:7::12" ∧ parse "lib: a.sol:7::12" = .ok rowLikePath ∧
      ¬ (⟨⟨"a"⟩, 1⟩ : Breakpoint).SpelledBy "a:++1" := by
  obtain ⟨spelled, again, -, -⟩ := parse_inverts_render
  have read : parse " lib: a.sol:7: :\t+0012\n" = .ok rowLikePath := by decide +kernel
  have written : rowLikePath.render = "lib: a.sol:7::12" := by decide +kernel
  obtain ⟨printable, back⟩ := again _ _ read
  rw [written] at back
  refine ⟨printable, (spelled _ _).mp read, written, back, ?_⟩
  rw [← spelled]
  decide +kernel

end Breakpoint

end TraceDebug

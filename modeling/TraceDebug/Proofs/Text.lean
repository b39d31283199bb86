import Mathlib.Data.List.TakeWhile
import TraceDebug.Text.Blank
import TraceDebug.Text.Decimal

/-!
# Trimmed text and decimal words

Trimming leaves what stands between the blanks at both ends of a text, and only one part of
the text does. A decimal word is read if all its digits are digits and its value is a word,
however many zeros lead it.
-/

namespace TraceDebug.Text

/-- What remains of a text without the blanks at both ends. -/
structure Trims (text core : List Char) : Prop where
  around : ∃ before after, (∀ c ∈ before, isBlank c = true) ∧ (∀ c ∈ after, isBlank c = true) ∧
    text = before ++ core ++ after
  first : ∀ c, core.head? = some c → isBlank c = false
  last : ∀ c, core.getLast? = some c → isBlank c = false

/-- A word in decimal, perhaps behind one plus sign. -/
def SpellsWord (text : List Char) (n : Nat) : Prop :=
  ∃ digits, (text = digits ∨ text = '+' :: digits) ∧ digits ≠ [] ∧
    (∀ c ∈ digits, c.isDigit = true) ∧ Nat.ofDigitChars 10 digits 0 = n ∧ n < wordLimit

theorem isBlank_of_head?_trimStart {text : List Char} {c : Char}
    (first : (trimStart text).head? = some c) : isBlank c = false := by
  have stopped := List.head?_dropWhile_not isBlank text
  rw [trimStart] at first
  rw [first] at stopped
  exact stopped

theorem trimStart_eq_self {text : List Char}
    (first : ∀ c, text.head? = some c → isBlank c = false) : trimStart text = text := by
  cases text with
  | nil => rfl
  | cons c rest =>
    apply List.dropWhile_cons_of_neg
    rw [first c rfl]
    exact Bool.false_ne_true

theorem trimStart_append {blanks : List Char} (blank : ∀ c ∈ blanks, isBlank c = true)
    (rest : List Char) : trimStart (blanks ++ rest) = trimStart rest :=
  List.dropWhile_append_of_pos blank

theorem exists_blanks_trimStart (text : List Char) :
    ∃ blanks, (∀ c ∈ blanks, isBlank c = true) ∧ text = blanks ++ trimStart text :=
  ⟨text.takeWhile isBlank, fun _ mem => List.mem_takeWhile_imp mem,
    List.takeWhile_append_dropWhile.symm⟩

theorem trimEnd_eq (text : List Char) : trimEnd text = (trimStart text.reverse).reverse := rfl

theorem exists_trimEnd_blanks (text : List Char) :
    ∃ blanks, (∀ c ∈ blanks, isBlank c = true) ∧ text = trimEnd text ++ blanks := by
  obtain ⟨blanks, blank, split⟩ := exists_blanks_trimStart text.reverse
  refine ⟨blanks.reverse, fun c mem => blank c (List.mem_reverse.mp mem), ?_⟩
  rw [trimEnd_eq, ← List.reverse_append, ← split, List.reverse_reverse]

theorem trims_trim (text : List Char) : Trims text (trim text) := by
  obtain ⟨before, blank, split⟩ := exists_blanks_trimStart text
  obtain ⟨after, blank', split'⟩ := exists_trimEnd_blanks (trimStart text)
  refine ⟨⟨before, after, blank, blank', ?_⟩, ?_, ?_⟩
  · rw [List.append_assoc, trim, ← split', ← split]
  · intro c first
    have head : (trimStart text).head? = some c := by
      rw [split', ← trim, List.head?_append, first, Option.some_or]
    exact isBlank_of_head?_trimStart head
  · intro c last
    rw [trim, trimEnd_eq, List.getLast?_reverse] at last
    exact isBlank_of_head?_trimStart last

theorem Trims.trim_eq {text core : List Char} (h : Trims text core) : trim text = core := by
  obtain ⟨before, after, blank, blank', rfl⟩ := h.around
  have started : trimStart (before ++ core ++ after) = trimStart (core ++ after) := by
    rw [List.append_assoc, trimStart_append blank]
  cases core with
  | nil =>
    have nothing : trimStart after = [] := List.dropWhile_eq_nil_iff.mpr blank'
    rw [trim, started, List.nil_append, nothing]
    rfl
  | cons c rest =>
    have kept : trimStart (c :: rest ++ after) = c :: rest ++ after :=
      trimStart_eq_self fun d first => h.first d first
    have kept' : trimStart (c :: rest).reverse = (c :: rest).reverse := by
      apply trimStart_eq_self
      intro d first
      rw [List.head?_reverse] at first
      exact h.last d first
    rw [trim, started, kept, trimEnd_eq, List.reverse_append,
      trimStart_append fun d mem => blank' d (List.mem_reverse.mp mem), kept',
      List.reverse_reverse]

theorem Trims.self {text : List Char} (first : ∀ c, text.head? = some c → isBlank c = false)
    (last : ∀ c, text.getLast? = some c → isBlank c = false) : Trims text text :=
  ⟨⟨[], [], nofun, nofun, (List.append_nil text).symm⟩, first, last⟩

theorem digit?_eq_some_iff {c : Char} {d : Nat} :
    digit? c = some d ↔ c.isDigit = true ∧ c.toNat - '0'.toNat = d := by
  have same : ('0' ≤ c ∧ c ≤ '9') ↔ c.isDigit = true := by
    simp only [Char.isDigit, Bool.and_eq_true, decide_eq_true_eq]
    exact Iff.rfl
  unfold digit?
  rw [← same]
  split
  · next isDigit => simp only [isDigit, Option.some.injEq, and_self, true_and]; rfl
  · next other => simp only [other, false_and, reduceCtorEq]

theorem le_ofDigitChars (digits : List Char) (value : Nat) :
    value ≤ Nat.ofDigitChars 10 digits value := by
  induction digits generalizing value with
  | nil => rw [Nat.ofDigitChars_nil]
  | cons c rest ih =>
    rw [Nat.ofDigitChars_cons]
    exact Nat.le_trans (by omega) (ih _)

/-- Values only grow while digits are read, so looking at each of them bounds the last one. -/
theorem readDigits_eq_ok_iff {limit value n : Nat} {text : List Char} (inside : value < limit) :
    readDigits limit value text = .ok n ↔
      (∀ c ∈ text, c.isDigit = true) ∧ Nat.ofDigitChars 10 text value = n ∧ n < limit := by
  induction text generalizing value with
  | nil =>
    rw [readDigits, Nat.ofDigitChars_nil]
    constructor
    · rintro ⟨rfl⟩
      exact ⟨nofun, rfl, inside⟩
    · rintro ⟨-, rfl, -⟩
      rfl
  | cons c rest ih =>
    rw [readDigits, List.forall_mem_cons, Nat.ofDigitChars_cons]
    cases digit : digit? c with
    | none =>
      have other : ¬ c.isDigit = true := fun isDigit => by
        rw [digit?_eq_some_iff.mpr ⟨isDigit, rfl⟩] at digit
        cases digit
      simp [other]
    | some d =>
      obtain ⟨isDigit, rfl⟩ := digit?_eq_some_iff.mp digit
      simp only [isDigit, true_and]
      split
      · next next => exact ih next
      · next large =>
        refine iff_of_false nofun ?_
        rintro ⟨-, rfl, bounded⟩
        exact large (Nat.lt_of_le_of_lt (le_ofDigitChars rest _) bounded)

theorem readWord_eq_ok_iff {text : List Char} {n : Nat} :
    readWord text = .ok n ↔ SpellsWord text n := by
  have positive : 0 < wordLimit := by decide
  unfold readWord SpellsWord
  split
  · refine iff_of_false nofun ?_
    rintro ⟨digits, rfl | none, some, -⟩
    · exact some rfl
    · cases none
  · refine iff_of_false nofun ?_
    rintro ⟨digits, rfl | same, some, isDigit, -⟩
    · exact absurd (isDigit '+' List.mem_cons_self) (by decide)
    · exact some (List.cons.inj same).2.symm
  · next digits some =>
    rw [readDigits_eq_ok_iff positive]
    constructor
    · rintro ⟨isDigit, value, bounded⟩
      exact ⟨digits, .inr rfl, fun none => some none, isDigit, value, bounded⟩
    · rintro ⟨digits', rfl | same, -, isDigit, value, bounded⟩
      · exact absurd (isDigit '+' List.mem_cons_self) (by decide)
      · obtain rfl := (List.cons.inj same).2
        exact ⟨isDigit, value, bounded⟩
  · next some noSign' noSign =>
    rw [readDigits_eq_ok_iff positive]
    constructor
    · rintro ⟨isDigit, value, bounded⟩
      exact ⟨text, .inl rfl, some, isDigit, value, bounded⟩
    · rintro ⟨digits, rfl | same, -, isDigit, value, bounded⟩
      · exact ⟨isDigit, value, bounded⟩
      · exact absurd same (noSign digits)

theorem isBlank_of_isDigit {c : Char} (isDigit : c.isDigit = true) : isBlank c = false := by
  have bounds : 48 ≤ c.toNat ∧ c.toNat ≤ 57 := by
    rw [Char.isDigit, Bool.and_eq_true, decide_eq_true_eq, decide_eq_true_eq] at isDigit
    exact isDigit
  simp only [isBlank, blankRanges, CodeRanges.has, List.any_cons, List.any_nil, Bool.or_false,
    Bool.or_eq_false_iff, Bool.and_eq_false_iff, decide_eq_false_iff_not]
  omega

theorem isBlank_of_mem_toDigits {c : Char} {n : Nat} (mem : c ∈ Nat.toDigits 10 n) :
    isBlank c = false :=
  isBlank_of_isDigit (Nat.isDigit_of_mem_toDigits (by decide) (by decide) mem)

theorem spellsWord_toDigits {n : Nat} (word : n < wordLimit) :
    SpellsWord (Nat.toDigits 10 n) n :=
  ⟨_, .inl rfl, Nat.toDigits_ne_nil,
    fun _ mem => Nat.isDigit_of_mem_toDigits (by decide) (by decide) mem,
    Nat.ofDigitChars_toDigits (by decide) (by decide), word⟩

end TraceDebug.Text

import Mathlib.Data.List.TakeWhile
import TraceDebug.Proofs.Source.Map

/-!
# Written entries

Three numbers in decimal, divided by colons, make a map with one element. The reader of
compressed source maps gives back the numbers, as far as it takes them: 32 bits for each, and
one file index less.
-/

namespace TraceDebug

/-- A written entry is read as one element, if the offset and the length have 32 bits and the
file index has 31. -/
def MapReader.ReadsEntries (reader : MapReader) : Prop :=
  ∀ offset length file, SourceMap.Narrow offset → SourceMap.Narrow length → file ≤ 2147483647 →
    reader.read s!"{offset}:{length}:{file}" = .ok [⟨offset, length, some file⟩]

namespace SourceMap

/-- A number is read up to the first character that is no digit. -/
theorem leadingNumber?_append {digits rest : List Char} (nonempty : digits ≠ [])
    (digit : ∀ c ∈ digits, isDigit c = true)
    (ended : ∀ c, rest.head? = some c → isDigit c = false) :
    leadingNumber? (digits ++ rest) = some (↑(decimal digits), digits.length, rest) := by
  have behind : rest.takeWhile isDigit = [] := by
    cases rest with
    | nil => rfl
    | cons c rest => exact List.takeWhile_cons_of_neg (Bool.eq_false_iff.mp (ended c rfl))
  have taken : (digits ++ rest).takeWhile isDigit = digits := by
    rw [List.takeWhile_append_of_pos digit, behind, List.append_nil]
  unfold leadingNumber?
  split
  · next tail signed =>
    -- What starts with a digit starts with no sign.
    cases digits with
    | nil => exact absurd rfl nonempty
    | cons c digits =>
      obtain ⟨rfl, -⟩ := List.cons.inj signed
      exact absurd (digit '-' List.mem_cons_self) (by decide)
  · have some : ¬ digits.isEmpty = true := mt List.isEmpty_iff.mp nonempty
    simp only [taken, if_neg some, List.drop_left]

theorem leadingNumber?_toDigits (n : Nat) {rest : List Char}
    (ended : ∀ c, rest.head? = some c → isDigit c = false) :
    leadingNumber? (Nat.toDigits 10 n ++ rest) =
      some (↑n, (Nat.toDigits 10 n).length, rest) := by
  have digit : ∀ c ∈ Nat.toDigits 10 n, isDigit c = true := fun c mem =>
    Nat.isDigit_of_mem_toDigits (by decide) (by decide) mem
  have value : decimal (Nat.toDigits 10 n) = n :=
    Nat.ofDigitChars_ten_toDigits
  rw [leadingNumber?_append Nat.toDigits_ne_nil digit ended, value]

namespace Draft

theorem number_of_narrow (position : Nat) {n : Nat} (narrow : Narrow n) :
    number position n = .ok (some n) := by
  unfold Narrow at narrow
  unfold number
  rw [if_neg (by omega), if_neg (by omega), if_neg (by omega), if_neg (by omega),
    if_neg (by omega), Int.toNat_natCast]

/-- The field at which the draft stands takes a number and has none yet. -/
def Free (d : Draft) : Prop :=
  match d.field with
  | .offset => d.offset = none
  | .length => d.length = none
  | .index => d.index = none
  | .jump => False
  | .modifier => d.modifier = none

def fill (d : Draft) (n : Nat) : Draft :=
  match d.field with
  | .offset => { d with offset := some (some n) }
  | .length => { d with length := some (some n) }
  | .index => { d with index := some (some n) }
  | .jump => d
  | .modifier => { d with modifier := some (some n) }

theorem setNumber_eq_fill {position n : Nat} {d : Draft} (narrow : Narrow n) (free : d.Free) :
    d.setNumber position n = .ok (d.fill n) := by
  obtain ⟨field, offset, length, index, jump, modifier⟩ := d
  cases field with
  | jump => cases free
  | offset | length | index | modifier =>
    cases free
    simp only [setNumber, number_of_narrow position narrow]
    rfl

end Draft

section
variable {position : Nat} {previous : Element} {d d' : Draft}

/-- A number in decimal goes into the field at which the draft stands. -/
theorem readFrom_number {n : Nat} {rest : List Char}
    (ended : ∀ c, rest.head? = some c → isDigit c = false)
    (set : d.setNumber position n = .ok d') :
    readFrom position previous d (Nat.toDigits 10 n ++ rest) =
      readFrom (position + (Nat.toDigits 10 n).length) previous d' rest := by
  have number := leadingNumber?_toDigits n ended
  cases text : Nat.toDigits 10 n ++ rest with
  | nil => exact absurd (List.append_eq_nil_iff.mp text).1 Nat.toDigits_ne_nil
  | cons c tail =>
    rw [text] at number
    rw [readFrom_of_number number, set]
    rfl

theorem readFrom_colon {tail : List Char} (moved : d.colon position = .ok d') :
    readFrom position previous d (':' :: tail) = readFrom (position + 1) previous d' tail := by
  have none : leadingNumber? (':' :: tail) = none := rfl
  rw [readFrom_of_sign none, if_neg (by decide), if_pos rfl, moved]
  rfl

end

theorem toList_entry (offset length file : Nat) :
    s!"{offset}:{length}:{file}".toList =
      Nat.toDigits 10 offset ++
        ':' :: (Nat.toDigits 10 length ++ ':' :: (Nat.toDigits 10 file ++ [])) := by
  have digits (n : Nat) : (toString n).toList = Nat.toDigits 10 n := Nat.toList_repr
  have colon : (toString ":").toList = [':'] := rfl
  simp only [String.toList_append, digits, colon, List.append_assoc, List.cons_append,
    List.nil_append, List.append_nil]

theorem read_entry {offset length file : Nat} (narrow : Narrow offset) (narrow' : Narrow length)
    (index : file < 4294967295) :
    read s!"{offset}:{length}:{file}" = .ok [⟨offset, length, some file⟩] := by
  have nonempty : ¬ s!"{offset}:{length}:{file}".isEmpty = true := by
    rw [String.isEmpty_iff, ← String.toList_inj, toList_entry]
    simp
  have atColon (tail : List Char) : ∀ c, (':' :: tail).head? = some c → isDigit c = false := by
    rintro c ⟨⟩
    rfl
  have atEnd : ∀ c, ([] : List Char).head? = some c → isDigit c = false := nofun
  -- The drafts, as each of the numbers goes into them.
  let first : Draft := { offset := some (some offset) }
  let second : Draft := { first with field := .length, length := some (some length) }
  let third : Draft := { second with field := .index, index := some (some file) }
  have set (position : Nat) : ({} : Draft).setNumber position offset = .ok first :=
    Draft.setNumber_eq_fill narrow rfl
  have set' (position : Nat) :
      { first with field := .length }.setNumber position length = .ok second :=
    Draft.setNumber_eq_fill narrow' rfl
  have set'' (position : Nat) :
      { second with field := .index }.setNumber position file = .ok third :=
    Draft.setNumber_eq_fill (Nat.lt_succ_of_lt index) rfl
  have finished : third.finish ⟨0, 0, none⟩ = .ok ⟨offset, length, some file⟩ := by
    have kept : (some file).filter (· ≠ 4294967295) = some file :=
      Option.filter_eq_some_iff.mpr ⟨rfl, decide_eq_true (Nat.ne_of_lt index)⟩
    simp only [Draft.finish, Draft.finish.completed, third, Option.map_some, kept]
    rfl
  rw [read, if_neg nonempty, toList_entry, readFrom_number (atColon _) (set _), readFrom_colon rfl,
    readFrom_number (atColon _) (set' _), readFrom_colon rfl, readFrom_number atEnd (set'' _),
    readFrom, finished]
  rfl

end SourceMap

theorem compressedReader_readsEntries : compressedReader.ReadsEntries := by
  intro offset length file narrow narrow' index
  change (SourceMap.read _).mapError _ = .ok _
  rw [SourceMap.read_entry narrow narrow' (Nat.lt_of_le_of_lt index (by decide))]
  rfl

end TraceDebug

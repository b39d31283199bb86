import TraceDebug.Word

/-!
# Compressed source maps

A source map has an element for every instruction, divided by semicolons. An
element has up to five fields, divided by colons: offset, length, file index,
jump kind and modifier depth. A field that is left out repeats the field of the
element before. A jump letter may stand in any field, once in an element.

Characters are read from the left, and the first error ends the reading.
Positions in errors count bytes.
-/

namespace TraceDebug.SourceMap

structure Element where
  offset : Nat
  length : Nat
  /-- The file index; compiler-made code has none. -/
  file : Option Nat
  deriving DecidableEq, Repr

inductive ReadError where
  | unexpectedCharacter (position : Nat) (c : Char)
  | unexpectedColon (position : Nat)
  | jumpSet (position : Nat)
  | expectedJump (position : Nat)
  | tooLargeForTarget (position : Nat)
  | tooSmallForTarget (position : Nat)
  | negative (position : Nat)
  | tooLarge (position : Nat)
  | fieldSet (position : Nat) (field : String)
  | modifierOverflow
  deriving DecidableEq, Repr

def ReadError.detail : ReadError → String
  | .unexpectedCharacter position c => s!"[{position}] unexpected character: {c}"
  | .unexpectedColon position => s!"[{position}] unexpected colon"
  | .jumpSet position => s!"[{position}] jump already set"
  | .expectedJump position => s!"[{position}] expected jump, found number"
  | .tooLargeForTarget position => s!"[{position}] number too large to fit in target type"
  | .tooSmallForTarget position => s!"[{position}] number too small to fit in target type"
  | .negative position => s!"[{position}] unexpected negative number"
  | .tooLarge position => s!"[{position}] number too large"
  | .fieldSet position field => s!"[{position}] {field} already set"
  | .modifierOverflow => "modifier depth overflow"

def ReadError.message (e : ReadError) : String := s!"failed to parse source map: {e.detail}"

inductive Field where
  | offset
  | length
  | index
  | jump
  | modifier
  deriving DecidableEq, Repr

def Field.next? : Field → Option Field
  | .offset => some .length
  | .length => some .index
  | .index => some .jump
  | .jump => some .modifier
  | .modifier => none

/-- The fields of the element being read, as far as they are there. A number
field holds `none` inside when it was written as `-1`. -/
structure Draft where
  field : Field := .offset
  offset : Option (Option Nat) := none
  length : Option (Option Nat) := none
  index : Option (Option Nat) := none
  jump : Bool := false
  modifier : Option (Option Nat) := none
  deriving DecidableEq, Repr

namespace Draft

def finish (previous : Element) (d : Draft) : Except ReadError Element :=
  match d.modifier with
  | some (some depth) => if depth < 1073741824 then .ok completed else .error .modifierOverflow
  | _ => .ok completed
where
  completed : Element :=
    { offset := (d.offset.map (·.getD 0)).getD previous.offset
      length := (d.length.map (·.getD 0)).getD previous.length
      file := (d.index.map (·.filter (· ≠ 4294967295))).getD previous.file }

def colon (position : Nat) (d : Draft) : Except ReadError Draft :=
  match d.field.next? with
  | some field => .ok { d with field }
  | none => .error (.unexpectedColon position)

def setJump (position : Nat) (d : Draft) : Except ReadError Draft :=
  if d.jump then .error (.jumpSet position) else .ok { d with jump := true }

/-- A number of the map: `-1` stands for none, and 32 bits bound it. -/
def number (position : Nat) (value : Int) : Except ReadError (Option Nat) :=
  if 9223372036854775807 < value then .error (.tooLargeForTarget position)
  else if value < -9223372036854775808 then .error (.tooSmallForTarget position)
  else if value < -1 then .error (.negative position)
  else if value = -1 then .ok none
  else if 4294967295 < value then .error (.tooLarge position)
  else .ok (some value.toNat)

def setNumber (position : Nat) (value : Int) (d : Draft) : Except ReadError Draft :=
  match d.field with
  | .jump => .error (.expectedJump position)
  | .offset => do
    let n ← number position value
    if d.offset.isSome then .error (.fieldSet position "offset")
    else .ok { d with offset := some n }
  | .length => do
    let n ← number position value
    if d.length.isSome then .error (.fieldSet position "length")
    else .ok { d with length := some n }
  | .index => do
    let n ← number position value
    if d.index.isSome then .error (.fieldSet position "index")
    else .ok { d with index := some n }
  | .modifier => do
    let n ← number position value
    if d.modifier.isSome then .error (.fieldSet position "modifier depth")
    else .ok { d with modifier := some n }

end Draft

def isDigit (c : Char) : Bool := '0' ≤ c && c ≤ '9'

def decimal (digits : List Char) : Nat := digits.foldl (fun n c => 10 * n + (c.toNat - 48)) 0

def leadingNumber? : List Char → Option (Int × Nat × List Char)
  | '-' :: rest =>
    let digits := rest.takeWhile isDigit
    if digits.isEmpty then none
    else some (-(decimal digits : Int), 1 + digits.length, rest.drop digits.length)
  | text =>
    let digits := text.takeWhile isDigit
    if digits.isEmpty then none
    else some (decimal digits, digits.length, text.drop digits.length)

theorem length_of_leadingNumber? {text rest : List Char} {value : Int} {width : Nat}
    (h : leadingNumber? text = some (value, width, rest)) : rest.length < text.length := by
  have take {l : List Char} (hl : (l.takeWhile isDigit).isEmpty = false) :
      (l.drop (l.takeWhile isDigit).length).length < l.length := by
    have : 0 < (l.takeWhile isDigit).length := by
      cases e : l.takeWhile isDigit with
      | nil => simp [e] at hl
      | cons => simp
    have : (l.takeWhile isDigit).length ≤ l.length :=
      (List.takeWhile_sublist isDigit).length_le
    simp only [List.length_drop]
    omega
  unfold leadingNumber? at h
  split at h <;> (dsimp only at h; split at h)
  · cases h
  · rename_i hd
    simp only [Option.some.injEq, Prod.mk.injEq] at h
    rw [← h.2.2]
    have := take (Bool.eq_false_iff.mpr hd)
    simp only [List.length_cons]
    omega
  · cases h
  · rename_i hd
    simp only [Option.some.injEq, Prod.mk.injEq] at h
    rw [← h.2.2]
    exact take (Bool.eq_false_iff.mpr hd)

/-- Read the elements of the rest of a map, whose first character stands at
byte `position`. -/
def readFrom (position : Nat) (previous : Element) (d : Draft) :
    List Char → Except ReadError (List Element)
  | [] => do return [← d.finish previous]
  | c :: tail =>
    match _number : leadingNumber? (c :: tail) with
    | some (value, width, rest) => do
      readFrom (position + width) previous (← d.setNumber position value) rest
    | none =>
      if c = ';' then do
        let element ← d.finish previous
        return element :: (← readFrom (position + 1) element {} tail)
      else if c = ':' then do
        readFrom (position + 1) previous (← d.colon position) tail
      else if c = 'i' ∨ c = 'o' ∨ c = '-' then do
        readFrom (position + 1) previous (← d.setJump position) tail
      else .error (.unexpectedCharacter position c)
termination_by text => text.length
decreasing_by
  · exact length_of_leadingNumber? _number
  all_goals exact Nat.lt_succ_self _

section
variable {position : Nat} {previous : Element} {d : Draft} {c : Char} {tail : List Char}

theorem readFrom_of_number {value : Int} {width : Nat} {rest : List Char}
    (number : leadingNumber? (c :: tail) = some (value, width, rest)) :
    readFrom position previous d (c :: tail) =
      (d.setNumber position value).bind fun d => readFrom (position + width) previous d rest := by
  rw [readFrom]
  split <;> cases number.symm.trans ‹_›
  rfl

theorem readFrom_of_sign (none : leadingNumber? (c :: tail) = none) :
    readFrom position previous d (c :: tail) =
      if c = ';' then do
        let element ← d.finish previous
        return element :: (← readFrom (position + 1) element {} tail)
      else if c = ':' then do
        readFrom (position + 1) previous (← d.colon position) tail
      else if c = 'i' ∨ c = 'o' ∨ c = '-' then do
        readFrom (position + 1) previous (← d.setJump position) tail
      else .error (.unexpectedCharacter position c) := by
  rw [readFrom]
  split <;> cases none.symm.trans ‹_›
  rfl

end

/-- The empty map has no element; any other map has one more than semicolons. -/
def read (text : String) : Except ReadError (List Element) :=
  if text.isEmpty then .ok [] else readFrom 0 ⟨0, 0, none⟩ {} text.toList

end TraceDebug.SourceMap

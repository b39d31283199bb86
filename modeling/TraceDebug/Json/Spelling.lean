/-!
# Strings as written

A string of the data format may hold escapes that stand for no text: a lone half
of a surrogate pair. So strings are kept as they were written, and their text is
asked for where it is needed.
-/

namespace TraceDebug.Json

/-- A character of a string, or the half word of a `\u` escape. -/
inductive StringUnit where
  | char (c : Char)
  | half (n : Nat)
  deriving DecidableEq, Repr

def isHighHalf (n : Nat) : Bool := 0xd800 ≤ n && n ≤ 0xdbff

def isLowHalf (n : Nat) : Bool := 0xdc00 ≤ n && n ≤ 0xdfff

/-- The characters that units stand for. A high half needs a low half behind it. -/
def charsOf : List StringUnit → Option (List Char)
  | [] => some []
  | .char c :: rest => (charsOf rest).map (c :: ·)
  | .half high :: .half low :: rest =>
    if isHighHalf high then
      if isLowHalf low then
        (charsOf rest).map (Char.ofNat (0x10000 + (high - 0xd800) * 0x400 + (low - 0xdc00)) :: ·)
      else none
    else if isLowHalf high then none
    else (charsOf (.half low :: rest)).map (Char.ofNat high :: ·)
  | .half n :: rest =>
    if isHighHalf n || isLowHalf n then none else (charsOf rest).map (Char.ofNat n :: ·)

theorem charsOf_map_char (l : List Char) : charsOf (l.map .char) = some l := by
  induction l with
  | nil => rfl
  | cons c rest ih => simp [charsOf, ih]

structure Spelling where
  units : List StringUnit
  deriving DecidableEq, Repr

namespace Spelling

def ofText (s : String) : Spelling := ⟨s.toList.map .char⟩

def text? (s : Spelling) : Option String := (charsOf s.units).map String.ofList

@[simp] theorem text?_ofText (s : String) : (ofText s).text? = some s := by
  simp [text?, ofText, charsOf_map_char]

def plain? (s : Spelling) : Option String :=
  let char? : StringUnit → Option Char
    | .char c => some c
    | .half _ => none
  (s.units.mapM char?).map String.ofList

end Spelling

end TraceDebug.Json

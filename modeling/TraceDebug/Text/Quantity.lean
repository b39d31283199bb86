import TraceDebug.Text.Escape

/-!
# 256-bit numbers as text

Numbers are written in hexadecimal with the fewest digits. They are read in
bases two, eight, ten and sixteen; low lines count for nothing, and no digit at
all is zero.
-/

namespace TraceDebug.Text

/-- One past the largest 256-bit number. -/
def quantityLimit : Nat := 1 <<< 256

def renderQuantity (n : Nat) : String := String.ofList ('0' :: 'x' :: hexDigits n)

/-- The base that the marker at the front asks for, and the digits behind it. -/
def splitBase : List Char → Nat × List Char
  | '0' :: 'x' :: digits | '0' :: 'X' :: digits => (16, digits)
  | '0' :: 'o' :: digits | '0' :: 'O' :: digits => (8, digits)
  | '0' :: 'b' :: digits | '0' :: 'B' :: digits => (2, digits)
  | digits => (10, digits)

def appendDigit? (base value : Nat) (c : Char) : Option Nat := do
  let d ← Hex.value? c
  guard (d < base ∧ base * value + d < quantityLimit)
  return base * value + d

def readQuantity? (text : String) : Option Nat :=
  let (base, digits) := splitBase text.toList
  (digits.filter (· ≠ '_')).foldlM (appendDigit? base) 0

end TraceDebug.Text

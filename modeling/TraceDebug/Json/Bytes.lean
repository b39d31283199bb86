import TraceDebug.Json.Record

/-!
# Byte strings in JSON

A byte string is hexadecimal text, or the array of its bytes. Where the length is
fixed, reading an array looks for one more byte behind the last, and is content if
there is none: an item of another kind there, or a broken one, is passed over.
-/

namespace TraceDebug.Json

/-- Hexadecimal text, or the array of the bytes. -/
def bytes? : Json → Option Bytes
  | .string s => s.text?.bind Bytes.ofHex?
  | .array items => items.mapM byte?
  | _ => none

/-- Whether digits are left over when the exponent of a number is read only until
it is out of the range of 32 bits. Zero and negative exponents are read to the end. -/
def leavesDigits (literal : List Char) : Bool :=
  let isMark (c : Char) := c == 'e' || c == 'E'
  let isNonzero (c : Char) := isDigit c && c != '0'
  match literal.dropWhile (!isMark ·) with
  | [] => false
  | _ :: '-' :: _ => false
  | _ :: exponent =>
    (literal.takeWhile (!isMark ·)).any isNonzero
      && 2147483647 < decimal (exponent.filter isDigit).dropLast

/-- Whether a string has a text up to its end, where at most one high half waits
for a low one. -/
def isTextToTheEnd (s : Spelling) : Bool :=
  s.text?.isSome ||
    match s.units.reverse with
    | .half n :: before => isHighHalf n && (charsOf before.reverse).isSome
    | _ => false

/-- Whether a value is read to its end where a byte is asked for, and is none. -/
def isNoByte : Json → Bool
  | .null => true
  | .bool _ => true
  | .integer n => n < 0 || 256 ≤ n
  | .real literal => !leavesDigits literal.toList
  | .string s => isTextToTheEnd s
  | _ => false

/-- Hexadecimal text, or the array of the bytes. What follows the last byte in an
array is of no account as long as it is no byte and does not hide the end of the
array. -/
def fixedBytes? {n : Nat} : Json → Option (FixedBytes n)
  | .string s => s.text?.bind FixedBytes.ofHex?
  | .array items =>
    if (items.drop n).all isNoByte && items.length ≤ n + 1 then
      ((items.take n).mapM byte?).bind FixedBytes.ofBytes?
    else none
  | .unfinished items => (items.mapM byte?).bind FixedBytes.ofBytes?
  | _ => none

def bytes (b : Bytes) : Json := .text b.toHex

def fixedBytes {n : Nat} (b : FixedBytes n) : Json := .text b.toHex

@[simp] theorem bytes?_bytes (b : Bytes) : (bytes b).bytes? = some b := by
  simp [bytes, bytes?, text]

@[simp] theorem fixedBytes?_fixedBytes {n : Nat} (b : FixedBytes n) :
    (fixedBytes b).fixedBytes? = some b := by
  simp [fixedBytes, fixedBytes?, text]

end TraceDebug.Json

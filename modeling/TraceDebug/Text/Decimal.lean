import TraceDebug.Word

/-!
# Decimal words

A 64-bit word written in decimal, with one optional plus sign. Characters are
examined from the left, and the first that is no digit, or takes the value out
of range, decides the error.
-/

namespace TraceDebug.Text

inductive DecimalError where
  | empty
  | invalidDigit
  | tooLarge
  deriving DecidableEq, Repr

def DecimalError.message : DecimalError → String
  | .empty => "cannot parse integer from empty string"
  | .invalidDigit => "invalid digit found in string"
  | .tooLarge => "number too large to fit in target type"

def digit? (c : Char) : Option Nat :=
  if '0' ≤ c ∧ c ≤ '9' then some (c.toNat - 48) else none

def readDigits (limit value : Nat) : List Char → Except DecimalError Nat
  | [] => .ok value
  | c :: rest =>
    match digit? c with
    | none => .error .invalidDigit
    | some d =>
      if 10 * value + d < limit then readDigits limit (10 * value + d) rest else .error .tooLarge

def readWord : List Char → Except DecimalError Nat
  | [] => .error .empty
  | ['+'] => .error .invalidDigit
  | '+' :: digits => readDigits wordLimit 0 digits
  | digits => readDigits wordLimit 0 digits

end TraceDebug.Text

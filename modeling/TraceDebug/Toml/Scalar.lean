import TraceDebug.Bytes
import TraceDebug.Toml.Moment
import TraceDebug.Toml.Value

/-!
# Unquoted TOML values

Truth values, numbers and points in time. Low lines may stand between digits,
and a decimal number does not begin with a needless zero.
-/

namespace TraceDebug.Toml

/-- The digits of a group without the low lines between them. -/
def ungroup? (ok : Char → Bool) : List Char → Option (List Char)
  | [] => none
  | [c] => if ok c then some [c] else none
  | c :: '_' :: d :: rest => if ok c then (ungroup? ok (d :: rest)).map (c :: ·) else none
  | c :: d :: rest => if ok c then (ungroup? ok (d :: rest)).map (c :: ·) else none

def hasLeadingZero : List Char → Bool
  | '0' :: _ :: _ => true
  | _ => false

def decimalDigits? (text : List Char) : Option (List Char) := do
  let digits ← ungroup? isDigit text
  guard (!hasLeadingZero digits)
  return digits

def basedValue? (base : Nat) (text : List Char) : Option Nat := do
  let digits ← ungroup? (fun c => (Hex.value? c).any (· < base)) text
  return digits.foldl (fun n c => base * n + (Hex.value? c).getD 0) 0

def splitSign : List Char → Bool × List Char
  | '-' :: rest => (true, rest)
  | '+' :: rest => (false, rest)
  | text => (false, text)

/-- Integers are those of 128 bits, signed or not. -/
def inIntegerRange (n : Int) : Bool :=
  -170141183460469231731687303715884105728 ≤ n && n < 340282366920938463463374607431768211456

def integer? (text : List Char) : Option Int := do
  let n : Int ← match text with
    | '0' :: 'x' :: digits => (basedValue? 16 digits).map Int.ofNat
    | '0' :: 'o' :: digits => (basedValue? 8 digits).map Int.ofNat
    | '0' :: 'b' :: digits => (basedValue? 2 digits).map Int.ofNat
    | _ =>
      let (negative, digits) := splitSign text
      (decimalDigits? digits).map fun digits =>
        if negative then -(digitsValue digits : Int) else digitsValue digits
  guard (inIntegerRange n)
  return n

/-- Whether `digits` times ten to the power `scale` rounds to a finite number of
double precision. Only around 310 decimal places is the exact value asked for. -/
def isFinite (digits : Nat) (scale : Int) : Bool :=
  let places : Int := (Nat.toDigits 10 digits).length + scale
  let bound := (1 <<< 1024) - (1 <<< 970)
  if digits = 0 ∨ places < 300 then true
  else if 320 < places then false
  else if scale < 0 then digits < bound * Nat.pow 10 scale.natAbs
  else digits * Nat.pow 10 scale.natAbs < bound

def fraction? : List Char → Option (List Char × List Char)
  | '.' :: rest => do
    let places := rest.takeWhile fun c => isDigit c || c == '_'
    return (← ungroup? isDigit places, rest.drop places.length)
  | rest => some ([], rest)

def exponent? : List Char → Option Int
  | [] => some 0
  | e :: rest => do
    guard (e == 'e' || e == 'E')
    let (negative, digits) := splitSign rest
    let digits ← ungroup? isDigit digits
    return if negative then -(digitsValue digits : Int) else digitsValue digits

def isReal (text : List Char) : Bool :=
  let (_, text) := splitSign text
  let whole := text.takeWhile fun c => isDigit c || c == '_'
  let check : Option Bool := do
    let digits ← decimalDigits? whole
    let rest := text.drop whole.length
    guard (!rest.isEmpty)
    let (places, rest) ← fraction? rest
    let exponent ← exponent? rest
    return isFinite (digitsValue (digits ++ places)) (exponent - places.length)
  check.getD false

def isSpecialReal (text : List Char) : Bool :=
  let (_, text) := splitSign text
  text == ['i', 'n', 'f'] || text == ['n', 'a', 'n']

def scalar? (text : List Char) : Option Value :=
  if text = ['t', 'r', 'u', 'e'] then some (.bool true)
  else if text = ['f', 'a', 'l', 's', 'e'] then some (.bool false)
  else match integer? text with
    | some n => some (.integer n)
    | none =>
      if isReal text || isSpecialReal text then some (.real (String.ofList text))
      else if isMoment text then some (.moment (String.ofList text))
      else none

end TraceDebug.Toml

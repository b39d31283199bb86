import TraceDebug.Json.Value

/-!
# JSON numbers

Numbers as written: a whole part without needless zeros, a fraction, an exponent.
-/

namespace TraceDebug.Json

def isDigit (c : Char) : Bool := '0' ≤ c && c ≤ '9'

def isExponent : List Char → Bool
  | '+' :: digits => !digits.isEmpty && digits.all isDigit
  | '-' :: digits => !digits.isEmpty && digits.all isDigit
  | digits => !digits.isEmpty && digits.all isDigit

def isFractional : List Char → Bool
  | '.' :: rest =>
    !(rest.takeWhile isDigit).isEmpty &&
      match rest.dropWhile isDigit with
      | [] => true
      | e :: exponent => (e == 'e' || e == 'E') && isExponent exponent
  | e :: exponent => (e == 'e' || e == 'E') && isExponent exponent
  | [] => false

def decimal (digits : List Char) : Nat := digits.foldl (fun n c => 10 * n + (c.toNat - 48)) 0

/-- The value of a number. Only zero itself begins with the digit zero. -/
def number? (literal : List Char) : Option Json := do
  let negative := literal.head? == some '-'
  let body := if negative then literal.drop 1 else literal
  let whole := body.takeWhile isDigit
  guard (!whole.isEmpty && (whole.head? != some '0' || whole.length == 1))
  match body.dropWhile isDigit with
  | [] =>
    let n := decimal whole
    return if !negative then .integer n
      else if n = 0 then .real (String.ofList literal) else .integer (-n)
  | rest =>
    guard (isFractional rest)
    return .real (String.ofList literal)

end TraceDebug.Json

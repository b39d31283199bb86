/-!
# Points in time in TOML

A date, a time of day, or both; only both together may have an offset. The days
of each month are those of the calendar. Seconds may be left out, and a minute
may have a second 60.
-/

namespace TraceDebug.Toml

def isDigit (c : Char) : Bool := '0' ≤ c && c ≤ '9'

def digitsValue (digits : List Char) : Nat :=
  digits.foldl (fun n c => 10 * n + (c.toNat - 48)) 0

/-- A number of exactly `width` digits between `low` and `high`, and what follows. -/
def field? (width low high : Nat) (text : List Char) : Option (Nat × List Char) :=
  let digits := text.take width
  let n := digitsValue digits
  if digits.length = width ∧ digits.all isDigit ∧ low ≤ n ∧ n ≤ high then
    some (n, text.drop width)
  else none

def past? (c : Char) : List Char → Option (List Char)
  | [] => none
  | d :: rest => if c = d then some rest else none

def isLeapYear (year : Nat) : Bool := year % 4 == 0 && (year % 100 != 0 || year % 400 == 0)

def daysInMonth (year month : Nat) : Nat :=
  if month = 2 then (if isLeapYear year then 29 else 28)
  else if month = 4 ∨ month = 6 ∨ month = 9 ∨ month = 11 then 30 else 31

def pastDate? (text : List Char) : Option (List Char) := do
  let (year, text) ← field? 4 0 9999 text
  let (month, text) ← field? 2 1 12 (← past? '-' text)
  let (_, text) ← field? 2 1 (daysInMonth year month) (← past? '-' text)
  return text

def pastFraction? : List Char → Option (List Char)
  | '.' :: text => if (text.takeWhile isDigit).isEmpty then none else some (text.dropWhile isDigit)
  | text => some text

def pastSeconds? : List Char → Option (List Char)
  | ':' :: text => do
    let (_, text) ← field? 2 0 60 text
    pastFraction? text
  | text => some text

def pastTime? (text : List Char) : Option (List Char) := do
  let (_, text) ← field? 2 0 23 text
  let (_, text) ← field? 2 0 59 (← past? ':' text)
  pastSeconds? text

def isOffset : List Char → Bool
  | [] => true
  | [c] => c == 'Z' || c == 'z'
  | sign :: text =>
    (sign == '+' || sign == '-') &&
      (do
        let (_, text) ← field? 2 0 23 text
        let (_, text) ← field? 2 0 59 (← past? ':' text)
        return text) == some []

def isMoment (text : List Char) : Bool :=
  match pastDate? text with
  | some [] => true
  | some (c :: rest) => (c == 'T' || c == 't' || c == ' ') && (pastTime? rest).any isOffset
  | none => pastTime? text == some []

end TraceDebug.Toml

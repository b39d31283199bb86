import TraceDebug.Json.Number
import TraceDebug.Json.Quoted

/-!
# Broken values

What begins like a value but is none is given up at the character that shows it.
The functions give what follows that character, and nothing if the text ends
before, or if there is a value.
-/

namespace TraceDebug.Json

/-- What follows the character at the front. Beyond ASCII already its first byte
shows that there is no value, and the other bytes fit nowhere. -/
def pastOne? : List Char → Option (List Char)
  | [] => none
  | c :: rest => if c.toNat < 128 then some rest else none

/-- Words are compared letter by letter. -/
def pastBrokenWord? : (expected text : List Char) → Option (List Char)
  | e :: expected, c :: rest =>
    if e = c then pastBrokenWord? expected rest else pastOne? (c :: rest)
  | _, _ => none

def pastNoDigit? : List Char → Option (List Char)
  | [] => none
  | c :: rest => if isDigit c then none else pastOne? (c :: rest)

def pastBrokenExponent? : List Char → Option (List Char)
  | '+' :: rest => pastNoDigit? rest
  | '-' :: rest => pastNoDigit? rest
  | rest => pastNoDigit? rest

def pastBrokenScale? : List Char → Option (List Char)
  | 'e' :: rest => pastBrokenExponent? rest
  | 'E' :: rest => pastBrokenExponent? rest
  | _ => none

/-- A number without sign. That no digit follows the point is seen at the point. -/
def pastBrokenNumber? (text : List Char) : Option (List Char) :=
  let whole := text.takeWhile isDigit
  if whole.isEmpty || (whole.head? == some '0' && whole.length != 1) then none
  else match text.dropWhile isDigit with
    | '.' :: rest =>
      if (rest.takeWhile isDigit).isEmpty then some rest
      else pastBrokenScale? (rest.dropWhile isDigit)
    | rest => pastBrokenScale? rest

/-- What follows the first `n` bytes, if these are whole characters. -/
def dropBytes? : (n : Nat) → List Char → Option (List Char)
  | 0, rest => some rest
  | _, [] => none
  | n, c :: rest => if c.utf8Size ≤ n then dropBytes? (n - c.utf8Size) rest else none

/-- A string behind its opening mark. The four digits of an escape are taken
together, and a high half asks for an escape with a low half at once. -/
def pastBrokenString? : List Char → Option (List Char)
  | '\\' :: 'u' :: a :: b :: c :: d :: rest =>
    match halfWord? a b c d with
    | none => dropBytes? 4 (a :: b :: c :: d :: rest)
    | some n =>
      if isLowHalf n then some rest
      else if isHighHalf n then
        match rest with
        | '\\' :: 'u' :: e :: f :: g :: h :: after =>
          match halfWord? e f g h with
          | none => dropBytes? 4 (e :: f :: g :: h :: after)
          | some m => if isLowHalf m then pastBrokenString? after else some after
        | '\\' :: 'u' :: after => dropBytes? 4 after
        | '\\' :: after => pastOne? after
        | after => pastOne? after
      else pastBrokenString? rest
  | '\\' :: 'u' :: rest => dropBytes? 4 rest
  | '\\' :: e :: rest =>
    if (simpleEscape? e).isSome then pastBrokenString? rest else pastOne? (e :: rest)
  | '"' :: _ => none
  | c :: rest =>
    if c = '\\' then none else if 32 ≤ c.toNat then pastBrokenString? rest else some rest
  | [] => none

def pastBroken? : List Char → Option (List Char)
  | 'n' :: rest => pastBrokenWord? ['u', 'l', 'l'] rest
  | 't' :: rest => pastBrokenWord? ['r', 'u', 'e'] rest
  | 'f' :: rest => pastBrokenWord? ['a', 'l', 's', 'e'] rest
  | '"' :: rest => pastBrokenString? rest
  | '-' :: rest => (pastNoDigit? rest).or (pastBrokenNumber? rest)
  | rest => pastBrokenNumber? rest

end TraceDebug.Json

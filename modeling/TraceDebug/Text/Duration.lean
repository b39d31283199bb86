/-!
# Durations as text

Whole milliseconds, in the largest unit of which the duration has one or more,
up to seconds, without zeros at the end of the fraction.
-/

namespace TraceDebug.Text

/-- Three decimal places without the zeros at their end. -/
def trimmedThousandths (n : Nat) : List Char :=
  let places := [n / 100, n / 10 % 10, n % 10].map fun d => Char.ofNat (48 + d)
  (places.reverse.dropWhile (· = '0')).reverse

def renderMilliseconds (ms : Nat) : String :=
  if ms = 0 then "0ns"
  else if ms < 1000 then s!"{ms}ms"
  else match trimmedThousandths (ms % 1000) with
    | [] => s!"{ms / 1000}s"
    | places => s!"{ms / 1000}.{String.ofList places}s"

end TraceDebug.Text

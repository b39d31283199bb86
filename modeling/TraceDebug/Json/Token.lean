import TraceDebug.Json.Broken

/-!
# JSON tokens

A text is cut into tokens. Only the four blank characters of the format may stand
between them. Where no token can be read, a broken one reaches up to the
character that shows it.
-/

namespace TraceDebug.Json

inductive Token where
  | openArray
  | closeArray
  | openObject
  | closeObject
  | comma
  | colon
  | atom (value : Json)
  /-- What begins like a value but is none, up to the character that shows it. -/
  | broken

def isNumberChar (c : Char) : Bool :=
  isDigit c || c == '-' || c == '+' || c == '.' || c == 'e' || c == 'E'

def isGap (c : Char) : Bool := c == ' ' || c == '\n' || c == '\t' || c == '\r'

def token? : List Char → Option (Token × List Char)
  | '[' :: rest => some (.openArray, rest)
  | ']' :: rest => some (.closeArray, rest)
  | '\x7b' :: rest => some (.openObject, rest)
  | '\x7d' :: rest => some (.closeObject, rest)
  | ',' :: rest => some (.comma, rest)
  | ':' :: rest => some (.colon, rest)
  | 'n' :: 'u' :: 'l' :: 'l' :: rest => some (.atom .null, rest)
  | 't' :: 'r' :: 'u' :: 'e' :: rest => some (.atom (.bool true), rest)
  | 'f' :: 'a' :: 'l' :: 's' :: 'e' :: rest => some (.atom (.bool false), rest)
  | '"' :: rest => do
    let (units, after) ← scanString rest
    return (.atom (.string ⟨units⟩), after)
  | c :: rest => do
    let literal := c :: rest.takeWhile isNumberChar
    return (.atom (← number? literal), rest.dropWhile isNumberChar)
  | [] => none

theorem length_of_token? {text : List Char} {t : Token} {after : List Char}
    (h : token? text = some (t, after)) : after.length < text.length := by
  unfold token? at h
  split at h
  all_goals try (simp only [Option.some.injEq, Prod.mk.injEq] at h; simp only [← h.2,
    List.length_cons]; omega)
  · simp only [Option.bind_eq_bind, Option.bind_eq_some_iff] at h
    obtain ⟨⟨units, after'⟩, scanned, h⟩ := h
    have := length_of_scanString scanned
    simp only [Option.pure_def, Option.some.injEq, Prod.mk.injEq] at h
    simp only [← h.2, List.length_cons]
    omega
  · rename_i c rest _ _ _ _ _ _ _ _ _ _
    simp only [Option.bind_eq_bind, Option.bind_eq_some_iff] at h
    obtain ⟨_, _, h⟩ := h
    simp only [Option.pure_def, Option.some.injEq, Prod.mk.injEq] at h
    have := (List.dropWhile_sublist isNumberChar (l := rest)).length_le
    simp only [← h.2, List.length_cons]
    omega
  · cases h

def tokens (text : List Char) : Option (List Token) :=
  match text with
  | [] => some []
  | c :: rest =>
    if isGap c then tokens rest
    else match _found : token? (c :: rest) with
      | some (t, after) => (tokens after).map (t :: ·)
      | none =>
        match pastBroken? (c :: rest) with
        | none => none
        | some after =>
          if after.length ≤ rest.length then (tokens after).map (.broken :: ·) else none
termination_by text.length
decreasing_by
  · simp
  · exact length_of_token? _found
  · simp only [List.length_cons]
    omega

end TraceDebug.Json

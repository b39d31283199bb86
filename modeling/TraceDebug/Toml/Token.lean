import TraceDebug.Toml.Quoted

/-!
# TOML tokens

A text is cut into tokens without regard to where they stand. Unquoted words,
of keys and of values alike, reach up to the next mark, blank or line break.
-/

namespace TraceDebug.Toml

inductive Token where
  | dot
  | equals
  | comma
  | openBracket
  | closeBracket
  | openBrace
  | closeBrace
  | blank (text : List Char)
  | comment
  | lineBreak
  | quoted (text : List Char)
  /-- Quoted text of the kind that may span lines. -/
  | long (text : List Char)
  | word (text : List Char)
  deriving DecidableEq

def isBlank (c : Char) : Bool := c == ' ' || c == '\t'

def endsWord (c : Char) : Bool :=
  isBlank c || c == '.' || c == '=' || c == ',' || c == '[' || c == ']' || c == '\x7b' ||
    c == '\x7d' || c == '#' || c == '\r' || c == '\n'

def pastComment? : List Char → Option (List Char)
  | [] => some []
  | '\n' :: rest => some ('\n' :: rest)
  | '\r' :: '\n' :: rest => some ('\r' :: '\n' :: rest)
  | c :: rest => if isPlain c then pastComment? rest else none

def token? : List Char → Option (Token × List Char)
  | [] => none
  | '.' :: rest => some (.dot, rest)
  | '=' :: rest => some (.equals, rest)
  | ',' :: rest => some (.comma, rest)
  | '[' :: rest => some (.openBracket, rest)
  | ']' :: rest => some (.closeBracket, rest)
  | '\x7b' :: rest => some (.openBrace, rest)
  | '\x7d' :: rest => some (.closeBrace, rest)
  | '\n' :: rest => some (.lineBreak, rest)
  | '\r' :: '\n' :: rest => some (.lineBreak, rest)
  | '\r' :: _ => none
  | '#' :: rest => (pastComment? rest).map (.comment, ·)
  | '"' :: '"' :: '"' :: rest =>
    (scanLongBasic (skipBreak rest)).map fun (t, after) => (.long t, after)
  | '"' :: rest => (scanBasic rest).map fun (t, after) => (.quoted t, after)
  | '\x27' :: '\x27' :: '\x27' :: rest =>
    (scanLongLiteral (skipBreak rest)).map fun (t, after) => (.long t, after)
  | '\x27' :: rest => (scanLiteral rest).map fun (t, after) => (.quoted t, after)
  | c :: rest =>
    if isBlank c then some (.blank (c :: rest.takeWhile isBlank), rest.dropWhile isBlank)
    else some (.word (c :: rest.takeWhile (!endsWord ·)), rest.dropWhile (!endsWord ·))

/-- The tokens of a text. Each takes at least one character. -/
def tokens : List Char → Option (List Token)
  | [] => some []
  | c :: rest =>
    match token? (c :: rest) with
    | none => none
    | some (t, after) =>
      if after.length ≤ rest.length then (tokens after).map (t :: ·) else none
termination_by text => text.length

end TraceDebug.Toml

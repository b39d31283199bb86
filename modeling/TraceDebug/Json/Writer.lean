import TraceDebug.Bytes
import TraceDebug.Json.Value

/-!
# Writing JSON

Values are written without blanks. Quotation marks, backslashes and control
characters are escaped; everything else stands for itself.
-/

namespace TraceDebug.Json

def escapeChar (c : Char) : List Char :=
  if c = '"' then ['\\', '"']
  else if c = '\\' then ['\\', '\\']
  else if c.toNat < 32 then
    ['\\', 'u', '0', '0', Hex.digit (c.toNat / 16), Hex.digit (c.toNat % 16)]
  else [c]

def renderUnit : StringUnit → List Char
  | .char c => escapeChar c
  | .half n =>
    ['\\', 'u', Hex.digit (n / 4096), Hex.digit (n / 256 % 16), Hex.digit (n / 16 % 16),
      Hex.digit (n % 16)]

def quoted (s : Spelling) : String :=
  String.ofList ('"' :: s.units.flatMap renderUnit ++ ['"'])

mutual

def render : Json → String
  | .null => "null"
  | .bool b => if b then "true" else "false"
  | .integer n => toString n
  | .real literal => literal
  | .string s => quoted s
  | .array items => "[" ++ renderItems items ++ "]"
  | .unfinished items => "[" ++ renderItems items ++ ",]"
  | .object members => "\x7b" ++ renderMembers members ++ "\x7d"

def renderItems : List Json → String
  | [] => ""
  | [item] => render item
  | item :: rest => render item ++ "," ++ renderItems rest

def renderMembers : List (Spelling × Json) → String
  | [] => ""
  | [(name, value)] => quoted name ++ ":" ++ render value
  | (name, value) :: rest => quoted name ++ ":" ++ render value ++ "," ++ renderMembers rest

end

end TraceDebug.Json

import TraceDebug.Toml.Scalar
import TraceDebug.Toml.Token

/-!
# Reading TOML

A text is a list of statements: headers, and keys with their values. A machine
that keeps the open arrays and tables on a stack reads one statement; then the
statement is carried out on the tables read so far.
-/

namespace TraceDebug.Toml

/-- What is open while a statement is read. Keys are kept with the last part first. -/
inductive Frame where
  | statement (key : List String)
  | array (before : List Value)
  | braces (before : Members) (key : List String)

inductive Expectation where
  | keyPart
  /-- Behind the opening brace or a comma of a table between braces. -/
  | keyPartOrClose
  | keyEnd
  | equals
  | value
  | valueOrClose
  | scalar (text : List Char)
  /-- Behind an unquoted value and blank space: a time of day may follow. -/
  | spaced (text gap : List Char)
  | complete (value : Value)

structure Machine where
  stack : List Frame
  expects : Expectation

/-- How deep arrays and tables may be nested in a value. -/
def nestingLimit : Nat := 80

/-- How many parts a key may have. -/
def keyLimit : Nat := 80

def isKeyChar (c : Char) : Bool :=
  isDigit c || ('a' ≤ c && c ≤ 'z') || ('A' ≤ c && c ≤ 'Z') || c == '_' || c == '-'

namespace Machine

def start : Machine := ⟨[.statement []], .keyPart⟩

/-- Whether line breaks and comments count as blanks: inside brackets and braces. -/
def spansLines : List Frame → Bool
  | .array _ :: _ => true
  | .braces .. :: _ => true
  | _ => false

/-- Whether a token says nothing where it stands. -/
def isGap (stack : List Frame) : Token → Bool
  | .blank _ => true
  | .comment => spansLines stack
  | .lineBreak => spansLines stack
  | _ => false

def extend? (part : List Char) (key : List String) : Option (List String) :=
  if key.length < keyLimit then some (String.ofList part :: key) else none

def addPart (part : List Char) : List Frame → Option Machine
  | .statement key :: stack => do return ⟨.statement (← extend? part key) :: stack, .keyEnd⟩
  | .braces before key :: stack => do
    return ⟨.braces before (← extend? part key) :: stack, .keyEnd⟩
  | _ => none

def keyPart (stack : List Frame) : Token → Option Machine
  | .blank _ => some ⟨stack, .keyPart⟩
  | .word text => if text.all isKeyChar then addPart text stack else none
  | .quoted text => addPart text stack
  | _ => none

def push (frame : Frame) (stack : List Frame) (expects : Expectation) : Option Machine :=
  if stack.length ≤ nestingLimit then some ⟨frame :: stack, expects⟩ else none

def value (stack : List Frame) : Token → Option Machine
  | .quoted text => some ⟨stack, .complete (.text (String.ofList text))⟩
  | .long text => some ⟨stack, .complete (.text (String.ofList text))⟩
  | .word text => some ⟨stack, .scalar text⟩
  | .openBracket => push (.array []) stack .valueOrClose
  | .openBrace => push (.braces [] []) stack .keyPartOrClose
  | _ => none

def after (v : Value) : List Frame → Token → Option Machine
  | .array before :: stack, .comma => some ⟨.array (v :: before) :: stack, .valueOrClose⟩
  | .array before :: stack, .closeBracket =>
    some ⟨stack, .complete (.array (v :: before).reverse)⟩
  | .braces before key :: stack, .comma => do
    return ⟨.braces (← before.assign v key.reverse) [] :: stack, .keyPartOrClose⟩
  | .braces before key :: stack, .closeBrace => do
    return ⟨stack, .complete (.table .closed (← before.assign v key.reverse))⟩
  | stack, t => if isGap stack t then some ⟨stack, .complete v⟩ else none

def step : Machine → Token → Option Machine
  | ⟨stack, .keyPart⟩, t => keyPart stack t
  | ⟨.braces before [] :: stack, .keyPartOrClose⟩, .closeBrace =>
    some ⟨stack, .complete (.table .closed before)⟩
  | ⟨stack, .keyPartOrClose⟩, t =>
    if isGap stack t then some ⟨stack, .keyPartOrClose⟩ else keyPart stack t
  | ⟨stack, .keyEnd⟩, .blank _ => some ⟨stack, .keyEnd⟩
  | ⟨stack, .keyEnd⟩, .dot => some ⟨stack, .keyPart⟩
  | ⟨stack, .keyEnd⟩, .equals => some ⟨stack, .value⟩
  | ⟨stack, .keyEnd⟩, t => if isGap stack t then some ⟨stack, .equals⟩ else none
  | ⟨stack, .equals⟩, .equals => some ⟨stack, .value⟩
  | ⟨stack, .equals⟩, t => if isGap stack t then some ⟨stack, .equals⟩ else none
  | ⟨stack, .value⟩, t => if isGap stack t then some ⟨stack, .value⟩ else value stack t
  | ⟨.array before :: stack, .valueOrClose⟩, .closeBracket =>
    some ⟨stack, .complete (.array before.reverse)⟩
  | ⟨stack, .valueOrClose⟩, t =>
    if isGap stack t then some ⟨stack, .valueOrClose⟩ else value stack t
  | ⟨stack, .scalar text⟩, .word more => some ⟨stack, .scalar (text ++ more)⟩
  | ⟨stack, .scalar text⟩, .dot => some ⟨stack, .scalar (text ++ ['.'])⟩
  | ⟨stack, .scalar text⟩, .blank gap => some ⟨stack, .spaced text gap⟩
  | ⟨stack, .scalar text⟩, t => do after (← scalar? text) stack t
  | ⟨stack, .spaced text gap⟩, .word more => some ⟨stack, .scalar (text ++ gap ++ more)⟩
  | ⟨stack, .spaced text _⟩, t => do after (← scalar? text) stack t
  | ⟨stack, .complete v⟩, t => after v stack t

def run (statement : List Token) : Option Machine := statement.foldlM step start

end Machine

def headerKey? (inner : List Token) : Option (List String) := do
  match ← Machine.run inner with
  | ⟨[.statement key], .keyEnd⟩ => return key.reverse
  | _ => none

def assignment? (statement : List Token) : Option (List String × Value) := do
  match ← Machine.run statement with
  | ⟨[.statement key], .complete v⟩ => return (key.reverse, v)
  | ⟨[.statement key], .scalar text⟩ => return (key.reverse, ← scalar? text)
  | ⟨[.statement key], .spaced text _⟩ => return (key.reverse, ← scalar? text)
  | _ => none

def between? (opening closing statement : List Token) : Option (List Token) :=
  if opening.isPrefixOf statement && closing.isSuffixOf statement
      && opening.length + closing.length ≤ statement.length then
    some ((statement.drop opening.length).take
      (statement.length - opening.length - closing.length))
  else none

/-- What was read: the tables, and the path of the table that is open. -/
structure Document where
  root : Members
  current : List String

/-- Open the table or the next table of a series that a header names. -/
def Document.enter (d : Document) (key : List String)
    (openLast : String → Members → Option Members) : Option Document := do
  let last ← key.getLast?
  return ⟨← d.root.within (openLast last) key.dropLast, key⟩

def Document.add (d : Document) (statement : List Token) : Option Document :=
  match statement with
  | [] => some d
  | .openBracket :: .openBracket :: _ => do
    let inner ← between? [.openBracket, .openBracket] [.closeBracket, .closeBracket] statement
    d.enter (← headerKey? inner) Members.openNext
  | .openBracket :: _ => do
    let inner ← between? [.openBracket] [.closeBracket] statement
    d.enter (← headerKey? inner) Members.openTable
  | _ => do
    let (key, value) ← assignment? statement
    return ⟨← d.root.within (Members.assign value key) d.current, d.current⟩

/-- Blank space around a statement and a comment behind it say nothing. -/
def bare (statement : List Token) : List Token :=
  let counts : Token → Bool
    | .blank _ => false
    | .comment => false
    | _ => true
  ((statement.dropWhile (!counts ·)).reverse.dropWhile (!counts ·)).reverse

/-- Cut tokens into statements at the line breaks outside all brackets. -/
def statements (depth : Nat) (current : List Token) : List Token → List (List Token)
  | [] => [current.reverse]
  | .lineBreak :: rest =>
    if depth = 0 then current.reverse :: statements 0 [] rest
    else statements depth (.lineBreak :: current) rest
  | t :: rest =>
    let depth := match t with
      | .openBracket | .openBrace => depth + 1
      | .closeBracket | .closeBrace => depth - 1
      | _ => depth
    statements depth (t :: current) rest

/-- A byte order mark at the very beginning is passed over. -/
def skipMark : List Char → List Char
  | '\ufeff' :: rest => rest
  | text => text

def read? (text : String) : Option Members := do
  let tokens ← tokens (skipMark text.toList)
  let d ← ((statements 0 [] tokens).map bare).foldlM Document.add ⟨[], []⟩
  return d.root

end TraceDebug.Toml

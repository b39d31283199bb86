import TraceDebug.Path

/-!
# Source files and positions

A source file is a path and a text. Ranges count bytes; positions count lines
and, inside a line, bytes, both from zero. A line ends with its line break.
-/

namespace TraceDebug

structure SourceFile where
  path : Path
  content : String
  deriving DecidableEq, Repr

structure SourceRange where
  offset : Nat
  length : Nat
  deriving DecidableEq, Repr

/-- The offset behind the last byte; a fault when it is no word. -/
def SourceRange.stop (r : SourceRange) : Checked Nat := Checked.add r.offset r.length

structure LineColumn where
  line : Nat
  column : Nat
  deriving DecidableEq, Repr

/-- From the first character to behind the last. -/
structure Span where
  start : LineColumn
  stop : LineColumn
  deriving DecidableEq, Repr

def Span.startsOn (s : Span) (row : Nat) : Bool := s.start.line == row

/-- The offsets behind the line breaks of a text that begins at `offset`. -/
def breaksFrom (offset : Nat) : List UInt8 → List Nat
  | [] => []
  | b :: rest => if b = 10 then (offset + 1) :: breaksFrom (offset + 1) rest
    else breaksFrom (offset + 1) rest

namespace SourceFile

def bytes (s : SourceFile) : List UInt8 := s.content.toUTF8.toList

def size (s : SourceFile) : Nat := s.bytes.length

def lineStarts (s : SourceFile) : List Nat := 0 :: breaksFrom 0 s.bytes

end SourceFile

/-- The line of an offset is the last one that starts at it or before it. -/
def positionAt (starts : List Nat) (offset : Nat) : Checked LineColumn := do
  let line := (starts.takeWhile (· ≤ offset)).length - 1
  let start ← Checked.get starts line
  return ⟨line, ← Checked.sub offset start⟩

/-- Turns a range of a source file into a span, unless the range leaves the text. -/
structure Converter where
  convert : SourceFile → SourceRange → Checked (Option Span)

/-- The converter that counts line breaks. -/
def lineBreakConverter : Converter where
  convert source range := do
    let stop ← range.stop
    if source.size < stop then return none
    let starts := source.lineStarts
    return some ⟨← positionAt starts range.offset, ← positionAt starts stop⟩

def noPositionConverter : Converter where
  convert _ _ := .ok none

end TraceDebug

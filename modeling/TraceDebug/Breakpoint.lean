import TraceDebug.Path
import TraceDebug.Text.Blank
import TraceDebug.Text.Decimal

/-!
# Breakpoints

A breakpoint is a row of a source file. The file may be given by the last
components of its path. As text a breakpoint is the path, a colon and the row;
the last colon divides them, and blank space around either part is ignored.
-/

namespace TraceDebug

structure Breakpoint where
  file : Path
  row : Nat
  deriving DecidableEq, Repr

/-- Whether the hits of a breakpoint are known. -/
inductive BreakpointState where
  | inactive
  | stale
  | indexed
  deriving DecidableEq, Repr

inductive BreakpointError where
  | noRow (text : String)
  | emptyPath
  | badRow (cause : Text.DecimalError)
  deriving DecidableEq, Repr

def BreakpointError.message : BreakpointError → String
  | .noRow text => s!"Invalid breakpoint format. Expected <path>:<row>, got: {text}"
  | .emptyPath => "Breakpoint path is empty"
  | .badRow cause => s!"Invalid row: {cause.message}"

namespace Breakpoint

instance : Ord Breakpoint := ⟨compareLex (compareOn file) (compareOn row)⟩

instance : Std.TransOrd Breakpoint :=
  inferInstanceAs (Std.TransCmp (compareLex (compareOn file) (compareOn row)))

/-- The compiled path may be longer than the path the user gave. -/
def matchesPath (b : Breakpoint) (path : Path) : Bool := path.endsWith b.file

def render (b : Breakpoint) : String := s!"{b.file.text}:{b.row}"

/-- The parts before and after the last `c`. -/
def splitLast (c : Char) : List Char → Option (List Char × List Char)
  | [] => none
  | d :: rest =>
    match splitLast c rest with
    | some (left, right) => some (d :: left, right)
    | none => if d = c then some ([], rest) else none

def parse (text : String) : Except BreakpointError Breakpoint :=
  match splitLast ':' (Text.trim text.toList) with
  | none => .error (.noRow text)
  | some (left, right) =>
    match Text.trim left with
    | [] => .error .emptyPath
    | path =>
      match Text.readWord (Text.trim right) with
      | .error cause => .error (.badRow cause)
      | .ok row => .ok ⟨⟨String.ofList path⟩, row⟩

end Breakpoint

end TraceDebug

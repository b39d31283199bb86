import TraceDebug.Breakpoint.Engine
import TraceDebug.Form.Source

/-!
# The JSON form of breakpoints
-/

namespace TraceDebug

open Json

def Breakpoint.toJson (b : Breakpoint) : Json :=
  record [("file", b.file.toJson), ("row", nat b.row)]

def Breakpoint.ofJson? (j : Json) : Option Breakpoint := do
  match ← j.fields? ["file", "row"] with
  | [file, row] => return ⟨← file.bind Path.ofJson?, ← row.bind word?⟩
  | _ => none

def BreakpointState.toJson : BreakpointState → Json
  | .inactive => text "Inactive"
  | .stale => text "Stale"
  | .indexed => text "Indexed"

def BreakpointState.ofJson? (j : Json) : Option BreakpointState := do
  match ← j.variant? with
  | ("Inactive", data) => plain? .inactive data
  | ("Stale", data) => plain? .stale data
  | ("Indexed", data) => plain? .indexed data
  | _ => none

def Direction.toJson : Direction → Json
  | .forward => text "Forward"
  | .backward => text "Backward"

def Direction.ofJson? (j : Json) : Option Direction := do
  match ← j.variant? with
  | ("Forward", data) => plain? .forward data
  | ("Backward", data) => plain? .backward data
  | _ => none

end TraceDebug

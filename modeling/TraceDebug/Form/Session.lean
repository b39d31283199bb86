import TraceDebug.Form.Breakpoint
import TraceDebug.Form.Transaction
import TraceDebug.Session.Basic

/-!
# The JSON form of settings, events and movements
-/

namespace TraceDebug

open Json

def SessionConfig.toJson (c : SessionConfig) : Json :=
  record [("event_capacity", nat c.eventCapacity), ("load_timeout_ms", option nat c.loadTimeoutMs),
    ("parallel_indexing", .bool c.parallelIndexing)]

/-- A setting that is not given has its default. -/
def SessionConfig.ofJson? (j : Json) : Option SessionConfig := do
  match ← j.someFields? ["event_capacity", "load_timeout_ms", "parallel_indexing"] with
  | [capacity, timeout, parallel] =>
    let default : SessionConfig := {}
    return ⟨← defaulting? word? default.eventCapacity capacity, ← optional? word? timeout,
      ← defaulting? bool? default.parallelIndexing parallel⟩
  | _ => none

def SessionEvent.toJson : SessionEvent → Json
  | .statusChanged active => taggedField "StatusChanged" "active" (.bool active)
  | .cursorChanged step => taggedField "CursorChanged" "step" (nat step)
  | .locationResolved location => tagged "LocationResolved" location.toJson
  | .breakpointReached step => taggedField "BreakpointReached" "step" (nat step)
  | .unloaded => text "Unloaded"

def SessionEvent.ofJson? (j : Json) : Option SessionEvent := do
  match ← j.variant? with
  | ("StatusChanged", some data) => return .statusChanged (← data.field? "active" bool?)
  | ("CursorChanged", some data) => return .cursorChanged (← data.field? "step" word?)
  | ("LocationResolved", some data) => return .locationResolved (← ResolvedLocation.ofJson? data)
  | ("BreakpointReached", some data) => return .breakpointReached (← data.field? "step" word?)
  | ("Unloaded", data) => plain? .unloaded data
  | _ => none

def EventKind.toJson : EventKind → Json
  | .statusChanged => text "StatusChanged"
  | .cursorChanged => text "CursorChanged"
  | .locationResolved => text "LocationResolved"
  | .breakpointReached => text "BreakpointReached"
  | .unloaded => text "Unloaded"

def EventKind.ofJson? (j : Json) : Option EventKind := do
  match ← j.variant? with
  | ("StatusChanged", data) => plain? .statusChanged data
  | ("CursorChanged", data) => plain? .cursorChanged data
  | ("LocationResolved", data) => plain? .locationResolved data
  | ("BreakpointReached", data) => plain? .breakpointReached data
  | ("Unloaded", data) => plain? .unloaded data
  | _ => none

def SessionStatus.toJson (s : SessionStatus) : Json := text s.name

def SessionStatus.ofJson? (j : Json) : Option SessionStatus := do
  match ← j.variant? with
  | ("Idle", data) => plain? .idle data
  | ("Loading", data) => plain? .loading data
  | ("Loaded", data) => plain? .loaded data
  | ("Unloaded", data) => plain? .unloaded data
  | _ => none

def LoadOutcome.toJson : LoadOutcome → Json
  | .loaded steps => taggedField "Loaded" "steps" (nat steps)
  | .ignored => text "Ignored"
  | .cancelled => text "Cancelled"

def LoadOutcome.ofJson? (j : Json) : Option LoadOutcome := do
  match ← j.variant? with
  | ("Loaded", some data) => return .loaded (← data.field? "steps" word?)
  | ("Ignored", data) => plain? .ignored data
  | ("Cancelled", data) => plain? .cancelled data
  | _ => none

def Movement.toJson : Movement → Json
  | .next => text "Next"
  | .previous => text "Previous"
  | .first => text "First"
  | .last => text "Last"
  | .stepOverForward => text "StepOverForward"
  | .stepOverBack => text "StepOverBack"
  | .jumpOut => text "JumpOut"

def Movement.ofJson? (j : Json) : Option Movement := do
  match ← j.variant? with
  | ("Next", data) => plain? .next data
  | ("Previous", data) => plain? .previous data
  | ("First", data) => plain? .first data
  | ("Last", data) => plain? .last data
  | ("StepOverForward", data) => plain? .stepOverForward data
  | ("StepOverBack", data) => plain? .stepOverBack data
  | ("JumpOut", data) => plain? .jumpOut data
  | _ => none

end TraceDebug

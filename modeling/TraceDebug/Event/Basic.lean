import TraceDebug.Source.Location

/-!
# Session events

What a session tells its subscribers.
-/

namespace TraceDebug

inductive SessionEvent where
  | statusChanged (active : Bool)
  | cursorChanged (step : Nat)
  | locationResolved (location : ResolvedLocation)
  | breakpointReached (step : Nat)
  | unloaded
  deriving DecidableEq

inductive EventKind where
  | statusChanged
  | cursorChanged
  | locationResolved
  | breakpointReached
  | unloaded
  deriving DecidableEq, Repr

def SessionEvent.kind : SessionEvent → EventKind
  | .statusChanged _ => .statusChanged
  | .cursorChanged _ => .cursorChanged
  | .locationResolved _ => .locationResolved
  | .breakpointReached _ => .breakpointReached
  | .unloaded => .unloaded

end TraceDebug

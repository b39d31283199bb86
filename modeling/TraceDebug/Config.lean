import TraceDebug.Text.Duration
import TraceDebug.Word

/-!
# Session settings

Settings of a session with their defaults.
-/

namespace TraceDebug

structure SessionConfig where
  /-- How many events are retained for a slow subscriber. -/
  eventCapacity : Nat := 1024
  loadTimeoutMs : Option Nat := none
  parallelIndexing : Bool := true
  deriving DecidableEq, Repr

namespace SessionConfig

/-- Fractions of a millisecond are dropped, and more than a word is the largest
word. Nanoseconds may make up whole seconds. -/
def withLoadTimeout (c : SessionConfig) (seconds nanoseconds : Nat) : Checked SessionConfig :=
  if wordLimit ≤ seconds + nanoseconds / 1000000000 then .error .durationTooLong
  else
    let ms := seconds * 1000 + nanoseconds / 1000000
    .ok { c with loadTimeoutMs := some (min ms (wordLimit - 1)) }

def renderOption (value : Option Nat) : String :=
  match value with
  | none => "None"
  | some n => s!"Some({n})"

def render (c : SessionConfig) : String :=
  s!"SessionConfig \x7b event_capacity: {c.eventCapacity}, " ++
    s!"load_timeout_ms: {renderOption c.loadTimeoutMs}, " ++
    s!"parallel_indexing: {c.parallelIndexing} \x7d"

end SessionConfig

end TraceDebug

import TraceDebug.Config
import TraceDebug.Toml.Reader
import TraceDebug.Word

/-!
# Settings in TOML

Settings are read from the top level of a TOML text. One that is not given has
its default, and other keys are passed over.
-/

namespace TraceDebug

inductive ConfigError where
  | malformed
  deriving DecidableEq, Repr

def ConfigError.message : ConfigError → String
  | .malformed => "Failed to parse session config"

namespace Toml

def Value.word? : Value → Option Nat
  | .integer n => if 0 ≤ n ∧ n < wordLimit then some n.toNat else none
  | _ => none

def Value.flag? : Value → Option Bool
  | .bool b => some b
  | _ => none

/-- The value of a key, or the default if the key is not there. -/
def Members.read? (m : Members) (key : String) (default : α) (convert? : Value → Option α) :
    Option α :=
  match m.get? key with
  | none => some default
  | some value => convert? value

end Toml

namespace SessionConfig

def ofMembers? (m : Toml.Members) : Option SessionConfig := do
  let default : SessionConfig := {}
  return {
    eventCapacity := ← m.read? "event_capacity" default.eventCapacity (·.word?)
    loadTimeoutMs := ← m.read? "load_timeout_ms" default.loadTimeoutMs (·.word?.map some)
    parallelIndexing := ← m.read? "parallel_indexing" default.parallelIndexing (·.flag?) }

def ofToml (text : String) : Except ConfigError SessionConfig :=
  match (Toml.read? text).bind ofMembers? with
  | some config => .ok config
  | none => .error .malformed

end SessionConfig

end TraceDebug

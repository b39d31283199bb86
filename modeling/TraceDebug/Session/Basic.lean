import TraceDebug.Breakpoint.Engine
import TraceDebug.Config
import TraceDebug.Event.Basic
import TraceDebug.Navigator
import TraceDebug.Provider
import TraceDebug.Text.Escape

/-!
# Debug sessions

A session owns the loaded trace, the cursor and the breakpoints. Loading and
locating run beside it; what they carry are the generation, raised by every load
and unload, and the number of the move, raised by every move of the cursor.
-/

namespace TraceDebug

inductive SessionStatus where
  /-- Nothing was loaded yet, or the last load failed. -/
  | idle
  | loading
  | loaded
  | unloaded
  deriving DecidableEq, Repr

def SessionStatus.name : SessionStatus → String
  | .idle => "Idle"
  | .loading => "Loading"
  | .loaded => "Loaded"
  | .unloaded => "Unloaded"

inductive LoadOutcome where
  | loaded (steps : Nat)
  | ignored
  /-- The session went on without this load. -/
  | cancelled
  deriving DecidableEq, Repr

structure Session where
  status : SessionStatus
  /-- Raised by every load and unload. Unbounded: no session comes to the end of 64 bits. -/
  generation : Nat
  /-- Raised by every move, and unbounded like the generation. -/
  moves : Nat
  loaded : Option LoadedTrace
  navigator : Option Navigator
  breakpoints : BreakpointEngine
  provider : Provider
  resolver : Resolver

/-- A load that was let in, with what it needs to go on. -/
structure LoadTicket where
  generation : Nat
  provider : Provider
  designation : TransactionRef

/-- The work of locating the step of one move, with the tags of the move. -/
structure Resolution where
  generation : Nat
  move : Nat
  step : Nat
  loaded : Option LoadedTrace
  artifact : Option Compilation

/-- One pass of a continuation either asks for an index run or is the last. -/
inductive Continuation where
  | index (request : IndexRequest)
  | done (started : Option Resolution)

namespace Session

def new (config : SessionConfig) (provider : Provider) (converter : Converter) : Session where
  status := .idle
  generation := 0
  moves := 0
  loaded := none
  navigator := none
  breakpoints := .new ⟨converter, compressedReader⟩ config.parallelIndexing
  provider := provider
  resolver := ⟨converter, compressedReader⟩

def cursor (s : Session) : Option Nat := s.navigator.map (·.cursor)

def stepCount (s : Session) : Option Nat := s.loaded.map (·.length)

def transaction (s : Session) : Option Transaction := s.loaded.map (·.transaction)

def addressAt (s : Session) (index : Nat) :
    Checked (Option (Except ResolutionError ExecutingAddress)) :=
  match s.loaded with
  | none => .ok none
  | some loaded => (loaded.frames.addressAt index).map some

/-- The frame stack at the cursor, outermost first. -/
def callStack (s : Session) : Checked (Option (Except ResolutionError (List CallFrame))) :=
  match s.loaded, s.navigator with
  | some loaded, some navigator => (loaded.frames.stackAt navigator.cursor).map some
  | _, _ => .ok none

/-- The location of any step under the compilation of now; the cursor stays. -/
def locationAt (s : Session) (index : Nat) : Checked (Option ResolvedLocation) :=
  match s.loaded with
  | none => .ok none
  | some loaded =>
    if index < loaded.length then
      (loaded.resolve s.resolver index s.breakpoints.artifact).map some
    else .ok none

def render (s : Session) : String :=
  s!"DebugSession \x7b status: {s.status.name}, generation: {s.generation}, " ++
    s!"cursor: {SessionConfig.renderOption s.cursor}, .. \x7d"

end Session

def renderContext (config : SessionConfig) (provider : Provider) : String :=
  s!"SessionContext \x7b config: {config.render}, " ++
    s!"provider: {Text.quote provider.name}, .. \x7d"

end TraceDebug

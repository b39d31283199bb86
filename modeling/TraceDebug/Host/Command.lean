import TraceDebug.Host.Basic

/-!
# Commands to a hosted session

What a user can ask of a session, and the replies. After a command the host
settles, unless it is told to hold resolutions back; a continuation settles
before it starts, too.
-/

namespace TraceDebug

inductive Command where
  | load (designation : TransactionRef)
  | release (id : Nat)
  | advance (ms : Nat)
  | unload
  /-- The source text was edited; the locations of the trace mean nothing now. -/
  | sourceEdited
  | setProvider (provider : Provider)
  | setArtifact (artifact : Option Compilation)
  | clearBreakpoints
  | addBreakpoint (b : Breakpoint)
  | removeBreakpoint (b : Breakpoint)
  | breakpoints
  | breakpointState (b : Breakpoint)
  | breakpointHits (b : Breakpoint)
  | jump (index : Nat)
  | move (movement : Movement)
  | continue_ (direction : Direction)
  | address (index : Nat)
  | stack
  | location (index : Nat)
  | transaction
  | trace
  | describe
  | subscribe (kinds : Option (List EventKind))
  | drain (number : Nat)

structure BreakpointView where
  breakpoint : Breakpoint
  state : Option BreakpointState
  hits : Option (List Nat)

inductive Reply where
  | done
  | flag (b : Bool)
  | load (reply : LoadReply)
  /-- The new step, or none if the cursor stayed. -/
  | moved (result : Except NavigationError (Option Nat))
  | breakpoints (views : List BreakpointView)
  | state (state : Option BreakpointState)
  | hits (hits : Option (List Nat))
  | address (result : Option (Except ResolutionError ExecutingAddress))
  | stack (result : Option (Except ResolutionError (List CallFrame)))
  | location (result : Option ResolvedLocation)
  | transaction (result : Option Transaction)
  | trace (result : Option LoadedTrace)
  | text (text : String)
  | subscriber (number : Nat)
  | events (events : List SessionEvent)

structure Report where
  reply : Reply
  /-- The settled resolutions that callers know of: step, and whether published. -/
  published : List (Nat × Bool) := []
  loads : List (Nat × Except LoadError LoadOutcome) := []

namespace Host

def report (h : Host) (turn : Turn α) (reply : α → Reply) : Host × Report :=
  (h.take turn true, { reply := reply turn.result })

def viewOf (h : Host) (b : Breakpoint) : BreakpointView :=
  ⟨b, h.session.breakpoints.state? b, h.session.breakpoints.hits? b⟩

def stepOf (result : Except NavigationError (Option Resolution)) : Reply :=
  .moved (result.map (·.map (·.step)))

def perform (h : Host) : Command → Checked (Host × Report)
  | .load designation =>
    let (h, reply) := h.load designation
    .ok (h, { reply := .load reply })
  | .release id =>
    let (h, reply) := h.release id
    .ok (h, { reply := .load reply })
  | .advance ms =>
    let (h, loads) := h.advance ms
    .ok (h, { reply := .done, loads })
  | .unload => .ok (h.report h.session.unload .flag)
  | .sourceEdited => .ok (h.report h.session.unload .flag)
  | .setProvider provider => .ok (h.report (h.session.setProvider provider) fun _ => .done)
  | .setArtifact artifact => .ok (h.report (h.session.setArtifact artifact) fun _ => .done)
  | .clearBreakpoints => .ok (h.report h.session.clearBreakpoints fun _ => .done)
  | .addBreakpoint b => .ok (h.report (h.session.addBreakpoint b) .flag)
  | .removeBreakpoint b => .ok (h.report (h.session.removeBreakpoint b) .flag)
  | .breakpoints =>
    .ok (h, { reply := .breakpoints (h.session.breakpoints.breakpoints.map h.viewOf) })
  | .breakpointState b => .ok (h, { reply := .state (h.session.breakpoints.state? b) })
  | .breakpointHits b => .ok (h, { reply := .hits (h.session.breakpoints.hits? b) })
  | .jump index => .ok (h.report (h.session.jumpTo index) fun r => stepOf (r.map some))
  | .move movement => return h.report (← h.session.moveCursor movement) stepOf
  | .continue_ direction =>
    let (h, published) := h.settle
    let (h, result) := h.continueWith direction none 2
    .ok (h, { reply := stepOf result, published })
  | .address index => return (h, { reply := .address (← h.session.addressAt index) })
  | .stack => return (h, { reply := .stack (← h.session.callStack) })
  | .location index => return (h, { reply := .location (← h.session.locationAt index) })
  | .transaction => .ok (h, { reply := .transaction h.session.transaction })
  | .trace => .ok (h, { reply := .trace h.session.loaded })
  | .describe => .ok (h, { reply := .text h.session.render })
  | .subscribe kinds =>
    let (h, number) := h.subscribe kinds
    .ok (h, { reply := .subscriber number })
  | .drain number =>
    let (h, events) := h.drain number
    .ok (h, { reply := .events events })

/-- Perform a command, and settle unless resolutions are held back. -/
def execute (h : Host) (command : Command) (hold : Bool) : Checked (Host × Report) := do
  let (h, report) ← h.perform command
  if hold then return (h, report)
  let (h, published) := h.settle
  return (h, { report with published := report.published ++ published })

end Host

end TraceDebug

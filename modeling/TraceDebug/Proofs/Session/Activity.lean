import TraceDebug.Session.Turn

/-!
# A session with its work under way

Beside a session run loads, resolutions and continuations. What is under way can go
on at any time and in any order, and each time it goes on it takes one turn of the
session. A run is a list of actions, so that a statement about all lists of actions
is one about all interleavings.
-/

namespace TraceDebug

/-- A continuation that waits for an index run. -/
structure Call where
  direction : Direction
  request : IndexRequest

def Call.afterPass (direction : Direction) :
    Except NavigationError Continuation → Option Call
  | .ok (.index request) => some ⟨direction, request⟩
  | _ => none

structure Activity where
  session : Session
  /-- Everything that was published, the oldest first. -/
  log : List SessionEvent
  loads : List LoadTicket
  resolutions : List Resolution
  /-- All continuations by number; one that ended leaves its place empty. -/
  calls : List (Option Call)

/-- What can happen next. Work under way is named by its place. -/
inductive Action where
  | beginLoad (designation : TransactionRef)
  | answerLoad (place : Nat) (transaction : Transaction) (answer : Except Causes Trace)
  | failLoad (place : Nat) (error : LoadError)
  | unload
  | setProvider (provider : Provider)
  | setArtifact (artifact : Option Compilation)
  | addBreakpoint (b : Breakpoint)
  | removeBreakpoint (b : Breakpoint)
  | clearBreakpoints
  | jumpTo (index : Nat)
  | move (movement : Movement)
  | beginContinue (direction : Direction)
  | resumeContinue (number : Nat)
  | finishResolution (place : Nat)
  | crashResolution (place : Nat)

namespace Activity

def start (config : SessionConfig) (provider : Provider) (converter : Converter) : Activity where
  session := .new config provider converter
  log := []
  loads := []
  resolutions := []
  calls := []

def take (x : Activity) (turn : Turn α) : Activity :=
  { x with
    session := turn.session
    log := x.log ++ turn.events
    resolutions := x.resolutions ++ turn.started.toList }

def beginLoad (x : Activity) (designation : TransactionRef) : Activity :=
  let turn := x.session.beginLoad designation
  { x.take turn with loads := x.loads ++ turn.result.toList }

def endLoad (x : Activity) (place : Nat) (answer : Except LoadError LoadedTrace) : Activity :=
  match x.loads[place]? with
  | none => x
  | some ticket =>
    { x.take (x.session.commitLoad ticket.generation answer) with
      loads := x.loads.eraseIdx place }

/-- A movement whose target cannot be computed changes nothing. -/
def move (x : Activity) (movement : Movement) : Activity :=
  match x.session.moveCursor movement with
  | .ok turn => x.take turn
  | .error _ => x

def beginContinue (x : Activity) (direction : Direction) : Activity :=
  let turn := x.session.continuePass direction none
  { x.take turn with calls := x.calls ++ [Call.afterPass direction turn.result] }

/-- The index run of a continuation ends and its next pass is made. A continuation
whose index run faults is over. -/
def resumeContinue (x : Activity) (number : Nat) : Activity :=
  match x.calls[number]?.join with
  | none => x
  | some call =>
    match call.request.run with
    | .error _ => { x with calls := x.calls.set number none }
    | .ok result =>
      let turn := x.session.continuePass call.direction (some result)
      { x.take turn with
        calls := x.calls.set number (Call.afterPass call.direction turn.result) }

def dropResolution (x : Activity) (place : Nat) : Activity :=
  { x with resolutions := x.resolutions.eraseIdx place }

/-- A resolution that faults cannot finish; it can only crash. -/
def finishResolution (x : Activity) (place : Nat) : Activity :=
  match x.resolutions[place]? with
  | none => x
  | some r =>
    match r.run x.session.resolver with
    | .error _ => x
    | .ok _ => (x.dropResolution place).take (x.session.finishResolution r)

/-- An action that names no work under way changes nothing. -/
def perform (x : Activity) : Action → Activity
  | .beginLoad designation => x.beginLoad designation
  | .answerLoad place transaction answer => x.endLoad place (indexAnswer transaction answer)
  | .failLoad place error => x.endLoad place (.error error)
  | .unload => x.take x.session.unload
  | .setProvider provider => x.take (x.session.setProvider provider)
  | .setArtifact artifact => x.take (x.session.setArtifact artifact)
  | .addBreakpoint b => x.take (x.session.addBreakpoint b)
  | .removeBreakpoint b => x.take (x.session.removeBreakpoint b)
  | .clearBreakpoints => x.take x.session.clearBreakpoints
  | .jumpTo index => x.take (x.session.jumpTo index)
  | .move movement => x.move movement
  | .beginContinue direction => x.beginContinue direction
  | .resumeContinue number => x.resumeContinue number
  | .finishResolution place => x.finishResolution place
  | .crashResolution place => x.dropResolution place

def run (x : Activity) (actions : List Action) : Activity := actions.foldl perform x

def published (x : Activity) (action : Action) : List SessionEvent :=
  (x.perform action).log.drop x.log.length

@[simp] theorem run_nil (x : Activity) : x.run [] = x := rfl

@[simp] theorem run_append (x : Activity) (first second : List Action) :
    x.run (first ++ second) = (x.run first).run second :=
  List.foldl_append

@[simp] theorem run_cons (x : Activity) (action : Action) (actions : List Action) :
    x.run (action :: actions) = (x.perform action).run actions := rfl

theorem run_concat (x : Activity) (actions : List Action) (action : Action) :
    x.run (actions ++ [action]) = (x.run actions).perform action := by
  rw [run_append, run_cons, run_nil]

/-- A state that a run of a new session leads to. -/
def Reachable (x : Activity) : Prop :=
  ∃ config provider converter actions, (start config provider converter).run actions = x

theorem reachable_run (config : SessionConfig) (provider : Provider) (converter : Converter)
    (actions : List Action) : ((start config provider converter).run actions).Reachable :=
  ⟨config, provider, converter, actions, rfl⟩

theorem Reachable.run {x : Activity} (h : x.Reachable) (actions : List Action) :
    (x.run actions).Reachable := by
  obtain ⟨config, provider, converter, earlier, rfl⟩ := h
  exact ⟨config, provider, converter, earlier ++ actions, run_append _ _ _⟩

/-- What is kept by every action is kept by every run. -/
theorem run_invariant {P : Activity → Prop} {x : Activity} (first : P x)
    (step : ∀ y action, P y → P (y.perform action)) (actions : List Action) :
    P (x.run actions) := by
  induction actions generalizing x with
  | nil => exact first
  | cons action actions ih => exact ih (step x action first)

/-- What holds of new sessions and is kept by every action holds of all reachable states.
The step may use what is known of reachable states already. -/
theorem Reachable.invariant {P : Activity → Prop} {x : Activity} (h : x.Reachable)
    (first : ∀ config provider converter, P (start config provider converter))
    (step : ∀ y action, y.Reachable → P y → P (y.perform action)) : P x := by
  obtain ⟨config, provider, converter, actions, rfl⟩ := h
  have start : (start config provider converter).Reachable ∧ P (start config provider converter) :=
    ⟨reachable_run config provider converter [], first config provider converter⟩
  exact (run_invariant (P := fun y => y.Reachable ∧ P y) start
    (fun y action known => ⟨known.1.run [action], step y action known.1 known.2⟩) actions).2

theorem published_eq {x : Activity} {action : Action} {events : List SessionEvent}
    (log : (x.perform action).log = x.log ++ events) : x.published action = events := by
  rw [published, log, List.drop_left]

def rowAddress : Address := .ofLast 0xaa

def rowTransaction : Transaction where
  hash := ⟨List.replicate 32 0, by decide⟩
  blockNumber := none
  index := none
  sender := rowAddress
  recipient := some rowAddress
  value := 0
  input := []

def rowCode : Bytes := [Opcode.jumpdest, Opcode.jumpdest, Opcode.jumpdest]

/-- A trace that runs the instructions at the given program counters. -/
def rowTrace (pcs : List Nat) : Trace where
  steps := pcs.map fun pc => ⟨pc, Opcode.jumpdest, 0, none⟩
  root := .contract rowAddress
  bytecodes := .ofList [(.contract rowAddress, rowCode)]

/-- One contract, whose instructions belong to the rows 4, 7 and 4 of a text with a line for
every character. -/
def rowCompilation : Compilation :=
  (Compilation.empty.withContract "Token"
    ⟨⟨"Token.sol"⟩, [], "", rowCode, "4:1:0;7:1:0;4:1:0"⟩).withSource 0 ⟨⟨"src/Token.sol"⟩, ""⟩

def rowConverter : Converter where
  convert _ range := .ok (some ⟨⟨range.offset, 0⟩, ⟨range.offset, range.length⟩⟩)

def rowProvider : Provider where
  name := "rows"
  transactionByHash _ := .ok (some rowTransaction)
  transactionAt _ _ := .ok (some rowTransaction)
  trace _ := .ok (rowTrace [0, 1, 2])

def rowStart : Activity := start { parallelIndexing := false } rowProvider rowConverter

def rowLoad (pcs : List Nat) : List Action :=
  [.beginLoad (.transaction rowTransaction), .answerLoad 0 rowTransaction (.ok (rowTrace pcs))]

end Activity

end TraceDebug

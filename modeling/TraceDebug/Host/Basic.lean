import TraceDebug.Event.Bus
import TraceDebug.Session.Turn

/-!
# Hosting a session

A host runs one session with all its background work in one thread and under a
clock of its own. Loads whose provider holds back its answer wait at a gate until
they are let through or their time is up. Resolutions wait until the host
settles, and are then run in the order in which they were started.
-/

namespace TraceDebug

/-- A load that waits for its provider. -/
structure WaitingLoad where
  id : Nat
  ticket : LoadTicket
  transaction : Transaction
  deadline : Option Nat

/-- A started resolution, and whether the caller of the move knows of it. -/
structure Unsettled where
  resolution : Resolution
  handed : Bool

structure Host where
  session : Session
  config : SessionConfig
  bus : Bus
  subscribers : List Subscriber
  clock : Nat
  loads : Nat
  waiting : List WaitingLoad
  unsettled : List Unsettled

inductive LoadReply where
  | ended (outcome : Except LoadError LoadOutcome)
  | waiting (id : Nat)
  | notWaiting (id : Nat)

namespace Host

def start (config : SessionConfig) (provider : Provider) (converter : Converter) :
    Checked Host := do
  let bus ← Bus.reserve config.eventCapacity
  return {
    session := .new config provider converter
    config, bus
    subscribers := []
    clock := 0
    loads := 0
    waiting := []
    unsettled := [] }

/-- Take over a turn of the session: publish its events, keep what it started. -/
def take (h : Host) (turn : Turn α) (handed : Bool) : Host :=
  { h with
    session := turn.session
    bus := h.bus.publishAll turn.events
    unsettled := h.unsettled ++ (turn.started.map (Unsettled.mk · handed)).toList }

/-- Run all started resolutions. Gives, for each that the caller knows of, its
step and whether it was published. -/
def settle (h : Host) : Host × List (Nat × Bool) :=
  h.unsettled.foldl settleOne ({ h with unsettled := [] }, [])
where
  settleOne (acc : Host × List (Nat × Bool)) (u : Unsettled) : Host × List (Nat × Bool) :=
    let turn := acc.1.session.finishResolution u.resolution
    (acc.1.take turn false,
      if u.handed then acc.2 ++ [(u.resolution.step, turn.result)] else acc.2)

def endLoad (h : Host) (ticket : LoadTicket) (answer : Except LoadError LoadedTrace) :
    Host × Except LoadError LoadOutcome :=
  let turn := h.session.commitLoad ticket.generation answer
  (h.take turn false, turn.result)

/-- A waiting load goes on with the answer of its provider. -/
def letThrough (h : Host) (load : WaitingLoad) : Host × Except LoadError LoadOutcome :=
  h.endLoad load.ticket
    (indexAnswer load.transaction (load.ticket.provider.trace load.transaction))

def timeIsUp (h : Host) (deadline : Option Nat) : Bool :=
  match deadline with
  | some time => time ≤ h.clock
  | none => false

def giveUp (h : Host) (ticket : LoadTicket) : Host × Except LoadError LoadOutcome :=
  h.endLoad ticket (.error (.timeout (h.config.loadTimeoutMs.getD 0)))

def load (h : Host) (designation : TransactionRef) : Host × LoadReply :=
  let id := h.loads
  let turn := h.session.beginLoad designation
  let h := { h.take turn false with loads := id + 1 }
  match turn.result with
  | none => (h, .ended (.ok .ignored))
  | some ticket =>
    match ticket.provider.resolve designation with
    | .error e =>
      let (h, outcome) := h.endLoad ticket (.error e)
      (h, .ended outcome)
    | .ok transaction =>
      let load : WaitingLoad := ⟨id, ticket, transaction, h.config.loadTimeoutMs.map (h.clock + ·)⟩
      if ticket.provider.gated then
        if h.timeIsUp load.deadline then
          let (h, outcome) := h.giveUp ticket
          (h, .ended outcome)
        else ({ h with waiting := h.waiting ++ [load] }, .waiting id)
      else
        let (h, outcome) := h.letThrough load
        (h, .ended outcome)

def release (h : Host) (id : Nat) : Host × LoadReply :=
  match h.waiting.find? (·.id == id) with
  | none => (h, .notWaiting id)
  | some load =>
    let h := { h with waiting := h.waiting.filter (·.id != id) }
    let (h, outcome) := h.letThrough load
    (h, .ended outcome)

/-- Let time pass. Gives the loads whose time is up with how they ended. -/
def advance (h : Host) (ms : Nat) : Host × List (Nat × Except LoadError LoadOutcome) :=
  let h := { h with clock := h.clock + ms }
  let (ended, waiting) := h.waiting.partition fun load => h.timeIsUp load.deadline
  ended.foldl endOne ({ h with waiting }, [])
where
  endOne (acc : Host × List (Nat × Except LoadError LoadOutcome)) (load : WaitingLoad) :
      Host × List (Nat × Except LoadError LoadOutcome) :=
    let (h, outcome) := acc.1.giveUp load.ticket
    (h, acc.2 ++ [(load.id, outcome)])

/-- Go on to the next hit in at most `passes` passes. Nothing else runs between
them, so that the second pass has all breakpoints indexed and is the last. An
index run that faults ends the continuation without a move. -/
def continueWith (h : Host) (direction : Direction) (pending : Option IndexResult) :
    (passes : Nat) → Host × Except NavigationError (Option Resolution)
  | 0 => (h, .ok none)
  | passes + 1 =>
    let turn := h.session.continuePass direction pending
    let h := h.take turn true
    match turn.result with
    | .error e => (h, .error e)
    | .ok (.done started) => (h, .ok started)
    | .ok (.index request) =>
      match request.run with
      | .ok result => h.continueWith direction (some result) passes
      | .error _ => (h, .ok none)

def subscribe (h : Host) (kinds : Option (List EventKind)) : Host × Nat :=
  ({ h with subscribers := h.subscribers ++ [h.bus.subscribe kinds] }, h.subscribers.length)

/-- All events that a subscriber has not received; none for an unknown subscriber. -/
def drain (h : Host) (number : Nat) : Host × List SessionEvent :=
  match h.subscribers[number]? with
  | none => (h, [])
  | some s =>
    let (s, events) := s.drain h.bus
    ({ h with subscribers := h.subscribers.set number s }, events)

end Host

end TraceDebug

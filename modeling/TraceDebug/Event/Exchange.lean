import TraceDebug.Event.Bus

/-!
# A bus with its subscribers

Subscribers are numbered in the order in which they subscribed. The bus and each
subscriber can go away; what is retained can still be received after the bus is
gone.
-/

namespace TraceDebug

structure Exchange where
  bus : Bus
  isOpen : Bool
  /-- The subscribers by number; one that went away leaves its place empty. -/
  subscribers : List (Option Subscriber)
  deriving DecidableEq

inductive Dropped where
  | bus
  | subscriber
  deriving DecidableEq, Repr

inductive Polled where
  | event (e : SessionEvent)
  | pending
  | closed
  deriving DecidableEq

namespace Exchange

def reserve (capacity : Nat) : Checked Exchange := return ⟨← Bus.reserve capacity, true, []⟩

def subscribe (x : Exchange) (kinds : Option (List EventKind)) :
    Except Dropped (Exchange × Nat) :=
  if x.isOpen then
    .ok ({ x with subscribers := x.subscribers ++ [some (x.bus.subscribe kinds)] },
      x.subscribers.length)
  else .error .bus

def publish (x : Exchange) (events : List SessionEvent) : Except Dropped Exchange :=
  if x.isOpen then .ok { x with bus := x.bus.publishAll events } else .error .bus

def count (x : Exchange) : Except Dropped Nat :=
  if x.isOpen then .ok (x.subscribers.countP Option.isSome) else .error .bus

def subscriber (x : Exchange) (number : Nat) : Except Dropped Subscriber :=
  match x.subscribers[number]?.join with
  | some s => .ok s
  | none => .error .subscriber

def put (x : Exchange) (number : Nat) (s : Option Subscriber) : Exchange :=
  { x with subscribers := x.subscribers.set number s }

def tryReceive (x : Exchange) (number : Nat) : Except Dropped (Exchange × Option SessionEvent) := do
  let s ← x.subscriber number
  let (s, event) := s.tryReceive x.bus
  return (x.put number (some s), event)

def drain (x : Exchange) (number : Nat) : Except Dropped (Exchange × List SessionEvent) := do
  let s ← x.subscriber number
  let (s, events) := s.drain x.bus
  return (x.put number (some s), events)

/-- Without an event there is more to wait for as long as the bus is there. -/
def poll (x : Exchange) (number : Nat) : Except Dropped (Exchange × Polled) := do
  match ← x.tryReceive number with
  | (x, some event) => return (x, .event event)
  | (x, none) => return (x, if x.isOpen then .pending else .closed)

def dropSubscriber (x : Exchange) (number : Nat) : Except Dropped Exchange := do
  let _ ← x.subscriber number
  return x.put number none

def dropBus (x : Exchange) : Exchange := { x with isOpen := false }

end Exchange

end TraceDebug

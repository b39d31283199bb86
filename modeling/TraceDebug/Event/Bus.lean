import TraceDebug.Event.Channel

/-!
# The event bus

One ordered stream of events for all subscribers, sent through a channel. Receiving is a loop
over the deliveries of the channel: it goes on behind events that the subscriber leaves out by
their kind, and after a lag. What a subscriber leaves out still counts for how far it is behind.
-/

namespace TraceDebug

structure Bus extends Channel
  deriving DecidableEq

namespace Bus

/-- A channel cannot be without places. -/
def new (capacity : Nat) : Bus := ⟨.new (max capacity 1)⟩

def reserve (capacity : Nat) : Checked Bus := (Channel.reserve (max capacity 1)).map .mk

theorem reserve_eq_ok {capacity : Nat} {b : Bus} (h : reserve capacity = .ok b) :
    b = new capacity := by
  obtain ⟨channel, room, rfl⟩ := Checked.map_eq_ok.mp h
  rw [Channel.reserve_eq_ok room, new]

def publish (b : Bus) (event : SessionEvent) : Bus := ⟨b.send event⟩

def publishAll (b : Bus) (events : List SessionEvent) : Bus := events.foldl publish b

end Bus

structure Subscriber extends Receiver where
  /-- The accepted kinds; all, if none are given. -/
  kinds : Option (List EventKind)
  deriving DecidableEq

namespace Subscriber

def accepts (s : Subscriber) (event : SessionEvent) : Bool :=
  match s.kinds with
  | none => true
  | some kinds => kinds.contains event.kind

def deliver (s : Subscriber) (b : Bus) : Subscriber × Delivery :=
  let (receiver, delivery) := s.toReceiver.deliver b.toChannel
  (⟨receiver, s.kinds⟩, delivery)

def left (s : Subscriber) (b : Bus) : Nat := s.toReceiver.left b.toChannel

section
variable {s t : Subscriber} {b : Bus} {delivery : Delivery}

theorem kinds_of_deliver (delivered : s.deliver b = (t, delivery)) : t.kinds = s.kinds := by
  cases delivered
  rfl

theorem left_lt_of_deliver (delivered : s.deliver b = (t, delivery)) (some : delivery ≠ .empty) :
    t.left b < s.left b := by
  cases delivered
  exact Receiver.left_lt_of_deliver rfl some

end

/-- Receive up to the first accepted event; events that are left out are gone. -/
def tryReceive (s : Subscriber) (b : Bus) : Subscriber × Option SessionEvent :=
  match _delivered : s.deliver b with
  | (t, .event event) => if s.accepts event then (t, some event) else t.tryReceive b
  | (t, .lagged _) => t.tryReceive b
  | (t, .empty) => (t, none)
termination_by s.left b
decreasing_by all_goals exact left_lt_of_deliver _delivered nofun

section
variable {s t : Subscriber} {b : Bus}

theorem tryReceive_of_event {event : SessionEvent} (delivered : s.deliver b = (t, .event event)) :
    s.tryReceive b = if s.accepts event then (t, some event) else t.tryReceive b := by
  rw [tryReceive]
  split <;> cases delivered.symm.trans ‹_›
  rfl

theorem tryReceive_of_lagged {missed : Nat} (delivered : s.deliver b = (t, .lagged missed)) :
    s.tryReceive b = t.tryReceive b := by
  rw [tryReceive]
  split <;> cases delivered.symm.trans ‹_›
  rfl

theorem tryReceive_of_empty (delivered : s.deliver b = (t, .empty)) :
    s.tryReceive b = (t, none) := by
  rw [tryReceive]
  split <;> cases delivered.symm.trans ‹_›
  rfl

theorem left_lt_of_tryReceive {event : SessionEvent}
    (received : s.tryReceive b = (t, some event)) : t.left b < s.left b := by
  induction s using tryReceive.induct b with
  | case1 s u other delivered accepted =>
    rw [tryReceive_of_event delivered, if_pos accepted] at received
    cases received
    exact left_lt_of_deliver delivered nofun
  | case2 s u other delivered refused ih =>
    rw [tryReceive_of_event delivered, if_neg refused] at received
    exact Nat.lt_trans (ih received) (left_lt_of_deliver delivered nofun)
  | case3 s u missed delivered ih =>
    rw [tryReceive_of_lagged delivered] at received
    exact Nat.lt_trans (ih received) (left_lt_of_deliver delivered nofun)
  | case4 s u delivered =>
    rw [tryReceive_of_empty delivered] at received
    cases received

end

/-- Receive until nothing is given. -/
def drain (s : Subscriber) (b : Bus) : Subscriber × List SessionEvent :=
  match _received : s.tryReceive b with
  | (t, some event) =>
    let (u, events) := t.drain b
    (u, event :: events)
  | (t, none) => (t, [])
termination_by s.left b
decreasing_by exact left_lt_of_tryReceive _received

theorem drain_of_some {s t : Subscriber} {b : Bus} {event : SessionEvent}
    (received : s.tryReceive b = (t, some event)) :
    s.drain b = ((t.drain b).1, event :: (t.drain b).2) := by
  rw [drain]
  split <;> cases received.symm.trans ‹_›
  rfl

theorem drain_of_none {s t : Subscriber} {b : Bus} (received : s.tryReceive b = (t, none)) :
    s.drain b = (t, []) := by
  rw [drain]
  split <;> cases received.symm.trans ‹_›
  rfl

end Subscriber

/-- A subscriber sees what is published from now on. -/
def Bus.subscribe (b : Bus) (kinds : Option (List EventKind)) : Subscriber := ⟨b.receiver, kinds⟩

end TraceDebug

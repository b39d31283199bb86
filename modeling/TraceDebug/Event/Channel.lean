import TraceDebug.Event.Basic

/-!
# Broadcast channels

The bus sends its events through a channel of a library. What it relies on is all here: a
channel has places for events, a power of two of them, and retains the newest events; a receiver
is a position in the stream of all events, and one delivery gives it the event at its position,
or tells how many events are gone from there on, or that there is none. The places are set aside
beforehand, so that a capacity beyond all memory is a fault.

Positions are unbounded: no stream comes to `2 ^ 64` events.
-/

namespace TraceDebug

/-- The least power of two that is `n` or more. -/
def roundUpPowerOfTwo (n : Nat) : Nat := if n ≤ 1 then 1 else 1 <<< ((n - 1).log2 + 1)

structure Channel where
  capacity : Nat
  /-- How many events were sent. -/
  published : Nat
  /-- The retained events, the oldest first. -/
  recent : List SessionEvent
  deriving DecidableEq

/-- What a single delivery gives: the next event, a report that older ones are gone, or
the news that there is none. -/
inductive Delivery where
  | event (e : SessionEvent)
  | lagged (missed : Nat)
  | empty

structure Receiver where
  /-- The number of the next event to receive. -/
  next : Nat
  deriving DecidableEq

namespace Channel

def new (capacity : Nat) : Channel := ⟨roundUpPowerOfTwo capacity, 0, []⟩

/-- One past the most places, and the most bytes, that a buffer can have. -/
def bufferLimit : Nat := wordLimit / 2

def placeSize : Nat := 128

/-- A new channel, if there can be room for it. -/
def reserve (capacity : Nat) : Checked Channel :=
  if bufferLimit ≤ capacity then .error .tooManyPlaces
  else if bufferLimit ≤ (new capacity).capacity * placeSize then .error .bufferTooLarge
  else .ok (new capacity)

theorem reserve_eq_ok {capacity : Nat} {c : Channel} (h : reserve capacity = .ok c) :
    c = new capacity := by
  unfold reserve at h
  split at h
  · cases h
  · split at h
    · cases h
    · cases h; rfl

def send (c : Channel) (event : SessionEvent) : Channel :=
  let kept := c.recent ++ [event]
  { c with published := c.published + 1, recent := kept.drop (kept.length - c.capacity) }

/-- The number of the oldest retained event. -/
def oldest (c : Channel) : Nat := c.published - c.recent.length

/-- A receiver gets what is sent from now on. -/
def receiver (c : Channel) : Receiver := ⟨c.published⟩

end Channel

namespace Receiver

/-- One delivery. A receiver that is told of a lag goes on with the oldest event. -/
def deliver (r : Receiver) (c : Channel) : Receiver × Delivery :=
  if r.next < c.oldest then (⟨c.oldest⟩, .lagged (c.oldest - r.next))
  else match c.recent[r.next - c.oldest]? with
    | some event => (⟨r.next + 1⟩, .event event)
    | none => (r, .empty)

variable {r r' : Receiver} {c : Channel}

theorem deliver_of_lt (lags : r.next < c.oldest) :
    r.deliver c = (⟨c.oldest⟩, .lagged (c.oldest - r.next)) :=
  if_pos lags

theorem deliver_of_some (near : c.oldest ≤ r.next) {event : SessionEvent}
    (found : c.recent[r.next - c.oldest]? = some event) :
    r.deliver c = (⟨r.next + 1⟩, .event event) := by
  rw [deliver, if_neg (Nat.not_lt.mpr near), found]

theorem deliver_of_none (near : c.oldest ≤ r.next)
    (none : c.recent[r.next - c.oldest]? = none) : r.deliver c = (r, .empty) := by
  rw [deliver, if_neg (Nat.not_lt.mpr near), none]

/-- How many events are there for a receiver, gone or not. -/
def left (r : Receiver) (c : Channel) : Nat := c.oldest + c.recent.length - r.next

/-- Every delivery but the last one leaves less. -/
theorem left_lt_of_deliver {delivery : Delivery} (delivered : r.deliver c = (r', delivery))
    (some : delivery ≠ .empty) : r'.left c < r.left c := by
  rcases Nat.lt_or_ge r.next c.oldest with lags | near
  · cases (deliver_of_lt lags).symm.trans delivered
    simp only [left]
    omega
  · cases found : c.recent[r.next - c.oldest]? with
    | none =>
      cases (deliver_of_none near found).symm.trans delivered
      exact absurd rfl some
    | some event =>
      cases (deliver_of_some near found).symm.trans delivered
      obtain ⟨inside, -⟩ := List.getElem?_eq_some_iff.mp found
      simp only [left]
      omega

end Receiver

end TraceDebug

import Mathlib.Algebra.Group.Nat.Defs
import Mathlib.Data.List.TakeWhile
import Mathlib.Order.Bounds.Basic
import TraceDebug.Event.Bus

/-!
# Receiving from the bus

The bus holds the newest events of everything that was published. A subscriber that is
further behind goes on with the oldest event that is held. What the loops over deliveries come
to is told by what is still held of the events that a subscriber has not received: the first
accepted event of it, or all of them.
-/

namespace TraceDebug

/-- Rounding up gives the least power of two that is large enough. -/
theorem isLeast_roundUpPowerOfTwo (n : Nat) :
    IsLeast {c | (∃ i, c = 2 ^ i) ∧ max n 1 ≤ c} (roundUpPowerOfTwo n) := by
  unfold roundUpPowerOfTwo
  split
  · next small =>
    refine ⟨⟨⟨0, rfl⟩, by omega⟩, ?_⟩
    rintro c ⟨-, large⟩
    omega
  · next large =>
    have positive : n - 1 ≠ 0 := by omega
    have below : 2 ^ (n - 1).log2 ≤ n - 1 := Nat.log2_self_le positive
    have above : n - 1 < 2 ^ ((n - 1).log2 + 1) := Nat.lt_log2_self
    rw [Nat.one_shiftLeft]
    refine ⟨⟨⟨_, rfl⟩, by omega⟩, ?_⟩
    rintro c ⟨⟨i, rfl⟩, enough⟩
    have beyond : 2 ^ (n - 1).log2 < 2 ^ i := by omega
    exact Nat.pow_le_pow_right Nat.two_pos ((Nat.pow_lt_pow_iff_right Nat.one_lt_two).mp beyond)

/-- The last `count` entries, or all if there are no more. -/
def newest (count : Nat) (l : List α) : List α := l.drop (l.length - count)

namespace Bus

/-- The bus holds the newest events of a history, as many as it has places. -/
structure Holds (b : Bus) (history : List SessionEvent) : Prop where
  published : b.published = history.length
  recent : b.recent = newest b.capacity history

variable {b : Bus} {history : List SessionEvent}

theorem holds_new (capacity : Nat) : (new capacity).Holds [] :=
  ⟨rfl, List.drop_nil.symm⟩

theorem Holds.publish (h : b.Holds history) (event : SessionEvent) :
    (b.publish event).Holds (history ++ [event]) where
  published := by simp [Bus.publish, Channel.send, h.published]
  recent := by
    have kept : b.recent ++ [event] =
        (history ++ [event]).drop (history.length - b.capacity) := by
      rw [h.recent, newest, List.drop_append_of_le_length (Nat.sub_le ..)]
    simp only [Bus.publish, Channel.send, kept, newest, List.drop_drop, List.length_drop,
      List.length_append, List.length_singleton]
    congr 1
    omega

theorem Holds.length_recent (h : b.Holds history) :
    b.recent.length = min b.capacity history.length := by
  rw [h.recent, newest, List.length_drop]
  omega

theorem Holds.recent_le (h : b.Holds history) : b.recent.length ≤ b.published := by
  rw [h.length_recent, h.published]
  exact Nat.min_le_right ..

end Bus

namespace Subscriber

/-- Deliveries up to the first accepted event, or up to the end. -/
inductive Loops (b : Bus) : Subscriber → Subscriber → Option SessionEvent → Prop where
  | accepted {s t : Subscriber} {event : SessionEvent} (delivered : s.deliver b = (t, .event event))
      (accepts : s.accepts event = true) : Loops b s t (some event)
  | leftOut {s t u : Subscriber} {event : SessionEvent} {given : Option SessionEvent}
      (delivered : s.deliver b = (t, .event event)) (refuses : s.accepts event = false)
      (rest : Loops b t u given) : Loops b s u given
  | lagged {s t u : Subscriber} {missed : Nat} {given : Option SessionEvent}
      (delivered : s.deliver b = (t, .lagged missed)) (rest : Loops b t u given) : Loops b s u given
  | empty {s t : Subscriber} (delivered : s.deliver b = (t, .empty)) : Loops b s t none

/-- Loop after loop, until one gives no event. -/
inductive LoopsOut (b : Bus) : Subscriber → Subscriber → List SessionEvent → Prop where
  | done {s t : Subscriber} (last : Loops b s t none) : LoopsOut b s t []
  | more {s t u : Subscriber} {event : SessionEvent} {given : List SessionEvent}
      (first : Loops b s t (some event)) (rest : LoopsOut b t u given) :
      LoopsOut b s u (event :: given)

variable {s t : Subscriber} {b : Bus} {history : List SessionEvent}

theorem loops_tryReceive (s : Subscriber) (b : Bus) :
    Loops b s (s.tryReceive b).1 (s.tryReceive b).2 := by
  induction s using tryReceive.induct b with
  | case1 s t event delivered accepted =>
    rw [tryReceive_of_event delivered, if_pos accepted]
    exact .accepted delivered accepted
  | case2 s t event delivered refused ih =>
    rw [tryReceive_of_event delivered, if_neg refused]
    exact .leftOut delivered (Bool.eq_false_iff.mpr refused) ih
  | case3 s t missed delivered ih =>
    rw [tryReceive_of_lagged delivered]
    exact .lagged delivered ih
  | case4 s t delivered =>
    rw [tryReceive_of_empty delivered]
    exact .empty delivered

theorem loopsOut_drain (s : Subscriber) (b : Bus) :
    LoopsOut b s (s.drain b).1 (s.drain b).2 := by
  induction s using drain.induct b with
  | case1 s t event received u events rest ih =>
    have first := loops_tryReceive s b
    rw [received] at first
    rw [drain_of_some received]
    exact .more first ih
  | case2 s t received =>
    have last := loops_tryReceive s b
    rw [received] at last
    rw [drain_of_none received]
    exact .done last

theorem kinds_of_loops {given : Option SessionEvent} (h : Loops b s t given) :
    t.kinds = s.kinds := by
  induction h with
  | accepted delivered accepts => exact kinds_of_deliver delivered
  | leftOut delivered refuses rest ih => exact ih.trans (kinds_of_deliver delivered)
  | lagged delivered rest ih => exact ih.trans (kinds_of_deliver delivered)
  | empty delivered => exact kinds_of_deliver delivered

theorem kinds_of_loopsOut {given : List SessionEvent} (h : LoopsOut b s t given) :
    t.kinds = s.kinds := by
  induction h with
  | done last => exact kinds_of_loops last
  | more first rest ih => exact ih.trans (kinds_of_loops first)

/-- What is still held of the events that a subscriber has not received. -/
def unread (s : Subscriber) (b : Bus) : List SessionEvent :=
  b.recent.drop (b.recent.length - (b.published - s.next))

/-- The number of the first event that is still there for a subscriber. -/
def oldest (s : Subscriber) (b : Bus) : Nat := max s.next (b.published - b.capacity)

theorem unread_eq (h : b.Holds history) (behind : s.next ≤ history.length) :
    s.unread b = history.drop (s.oldest b) := by
  rw [unread, h.recent, newest, List.drop_drop, List.length_drop, oldest, h.published]
  congr 1
  omega

/-- Of what a subscriber has not read, the newest events are still there. -/
theorem unread_eq_newest (h : b.Holds history) (behind : s.next ≤ history.length) :
    s.unread b = newest b.capacity (history.drop s.next) := by
  rw [unread_eq h behind, newest, List.drop_drop, List.length_drop, oldest, h.published]
  congr 1
  omega

theorem oldest_le (h : b.Holds history) (behind : s.next ≤ history.length) :
    s.oldest b ≤ history.length := by
  rw [oldest, h.published]
  omega

/-- Nothing is unread, the subscriber lags, or the next event is there. -/
theorem deliver_cases (h : b.Holds history) (behind : s.next ≤ history.length) :
    (s.unread b = [] ∧ s.next = b.published ∧ s.deliver b = (s, .empty)) ∨
    (∃ missed, 0 < missed ∧ s.next + missed ≤ b.published ∧
      s.deliver b = ({ s with next := s.next + missed }, .lagged missed) ∧
      ({ s with next := s.next + missed } : Subscriber).unread b = s.unread b) ∨
    ∃ event later, s.unread b = event :: later ∧ s.next + 1 + later.length = b.published ∧
      s.deliver b = ({ s with next := s.next + 1 }, .event event) ∧
      ({ s with next := s.next + 1 } : Subscriber).unread b = later := by
  have held := h.recent_le
  have oldest : b.oldest = b.published - b.recent.length := rfl
  rw [← h.published] at behind
  simp only [deliver, unread]
  rcases Nat.lt_or_ge s.next b.oldest with lags | near
  · have goesOn : s.next + (b.oldest - s.next) = b.oldest := by omega
    rw [Receiver.deliver_of_lt lags]
    refine .inr (.inl ⟨b.oldest - s.next, by omega, by omega, ?_, ?_⟩)
    · rw [goesOn]
    · congr 1
      omega
  · have place : b.recent.length - (b.published - s.next) = s.next - b.oldest := by omega
    rw [place]
    cases found : b.recent[s.next - b.oldest]? with
    | none =>
      have beyond := List.getElem?_eq_none_iff.mp found
      rw [Receiver.deliver_of_none near found]
      exact .inl ⟨List.drop_eq_nil_iff.mpr beyond, by omega, rfl⟩
    | some event =>
      obtain ⟨inside, rfl⟩ := List.getElem?_eq_some_iff.mp found
      have next : b.recent.length - (b.published - (s.next + 1)) = s.next - b.oldest + 1 := by
        omega
      rw [Receiver.deliver_of_some near found]
      refine .inr (.inr ⟨_, _, List.drop_eq_getElem_cons inside, ?_, rfl, by rw [next]⟩)
      rw [List.length_drop]
      omega

/-- Receiving goes behind the first accepted event that is unread, or behind all events. -/
theorem tryReceive_eq (h : b.Holds history) (behind : s.next ≤ history.length) :
    s.tryReceive b = match (s.unread b).dropWhile fun event => !s.accepts event with
      | [] => ({ s with next := b.published }, none)
      | event :: later => ({ s with next := b.published - later.length }, some event) := by
  have published := h.published
  induction s using tryReceive.induct b with
  | case1 s t event delivered accepted =>
    rcases deliver_cases h behind with ⟨-, -, delivered'⟩ | ⟨_, -, -, delivered', -⟩ |
      ⟨_, later, unread, next, delivered', -⟩
    all_goals cases delivered.symm.trans delivered'
    have place : b.published - later.length = s.next + 1 := by omega
    rw [tryReceive_of_event delivered, if_pos accepted, unread,
      List.dropWhile_cons_of_neg (by simpa using accepted)]
    simp only [place]
  | case2 s t event delivered refused ih =>
    rcases deliver_cases h behind with ⟨-, -, delivered'⟩ | ⟨_, -, -, delivered', -⟩ |
      ⟨_, later, unread, next, delivered', rest⟩
    all_goals cases delivered.symm.trans delivered'
    rw [tryReceive_of_event delivered, if_neg refused, unread,
      List.dropWhile_cons_of_pos (by simpa using refused), ih (by dsimp only; omega), rest]
    rfl
  | case3 s t missed delivered ih =>
    rcases deliver_cases h behind with ⟨-, -, delivered'⟩ | ⟨_, -, inside, delivered', same⟩ |
      ⟨_, _, -, -, delivered', -⟩
    all_goals cases delivered.symm.trans delivered'
    rw [tryReceive_of_lagged delivered, ih (by dsimp only; omega), same]
    rfl
  | case4 s t delivered =>
    rcases deliver_cases h behind with ⟨none, next, delivered'⟩ | ⟨_, -, -, delivered', -⟩ |
      ⟨_, _, -, -, delivered', -⟩
    all_goals cases delivered.symm.trans delivered'
    rw [tryReceive_of_empty delivered, none, List.dropWhile_nil, ← next]

/-- Receiving leaves out all that is unread, or all before the first accepted event. -/
theorem tryReceive_cases (h : b.Holds history) (behind : s.next ≤ history.length) :
    ((s.unread b).filter s.accepts = [] ∧
      s.tryReceive b = ({ s with next := b.published }, none)) ∨
    ∃ leftOut event later, s.unread b = leftOut ++ event :: later ∧
      leftOut.filter s.accepts = [] ∧ s.accepts event = true ∧
      s.tryReceive b = ({ s with next := b.published - later.length }, some event) := by
  rw [tryReceive_eq h behind]
  split
  · next none =>
    have refused := List.dropWhile_eq_nil_iff.mp none
    refine .inl ⟨List.filter_eq_nil_iff.mpr fun event mem => ?_, rfl⟩
    simpa using refused event mem
  · next event later rest =>
    have split := List.takeWhile_append_dropWhile (p := fun e => !s.accepts e) (l := s.unread b)
    rw [rest] at split
    refine .inr ⟨_, event, later, split.symm, ?_, ?_, rfl⟩
    · apply List.filter_eq_nil_iff.mpr
      intro e mem
      simpa using List.mem_takeWhile_imp mem
    · have first : (s.unread b).find? s.accepts = some event := by
        rw [List.find?_eq_head?_dropWhile_not, rest, List.head?_cons]
      exact List.find?_some first

theorem tryReceive_snd (h : b.Holds history) (behind : s.next ≤ history.length) :
    (s.tryReceive b).2 = (s.unread b).find? s.accepts := by
  rw [List.find?_eq_head?_dropWhile_not, tryReceive_eq h behind]
  split
  · next none => rw [none, List.head?_nil]
  · next event later rest => rw [rest, List.head?_cons]

/-- When nothing is received, nothing is left unread. -/
theorem next_tryReceive (h : b.Holds history) (behind : s.next ≤ history.length)
    (none : (s.tryReceive b).2 = none) : (s.tryReceive b).1.next = b.published := by
  rcases tryReceive_cases h behind with ⟨-, received⟩ | ⟨_, _, _, -, -, -, received⟩
  · rw [received]
  · rw [received] at none
    cases none

/-- Behind an event that was unread, what came after it is unread. -/
theorem unread_later {front later : List SessionEvent} (held : b.recent.length ≤ b.published)
    (split : s.unread b = front ++ later) :
    ({ s with next := b.published - later.length } : Subscriber).unread b = later := by
  have suffix : later <:+ b.recent :=
    (List.suffix_append front later).trans (split ▸ List.drop_suffix _ _)
  have length := suffix.length_le
  have place : b.published - (b.published - later.length) = later.length := by omega
  rw [unread, place]
  exact (List.suffix_iff_eq_drop.mp suffix).symm

/-- Draining goes behind all events, and gives the accepted ones that are unread. -/
theorem drain_eq (h : b.Holds history) (behind : s.next ≤ history.length) :
    s.drain b = ({ s with next := b.published }, (s.unread b).filter s.accepts) := by
  have published := h.published
  induction s using drain.induct b with
  | case1 s t event received u events rest ih =>
    rcases tryReceive_cases h behind with ⟨-, received'⟩ |
      ⟨leftOut, _, later, unread, refused, accepted, received'⟩
    all_goals cases received.symm.trans received'
    have split : s.unread b = (leftOut ++ [event]) ++ later := by simp [unread]
    rw [drain_of_some received, ih (by dsimp only; omega), unread_later h.recent_le split, unread,
      List.filter_append, refused, List.filter_cons_of_pos accepted]
    rfl
  | case2 s t received =>
    rcases tryReceive_cases h behind with ⟨none, received'⟩ | ⟨_, _, _, -, -, -, received'⟩
    all_goals cases received.symm.trans received'
    rw [drain_of_none received, none]

/-- A subscriber goes on behind what it has read, and is given what it accepts of that. -/
structure Reads (s : Subscriber) (b : Bus) (history : List SessionEvent) (t : Subscriber)
    (given : List SessionEvent) : Prop where
  kinds : t.kinds = s.kinds
  forward : s.oldest b ≤ t.next
  inside : t.next ≤ history.length
  given : given = ((history.drop (s.oldest b)).take (t.next - s.oldest b)).filter s.accepts

theorem reads_tryReceive (h : b.Holds history) (behind : s.next ≤ history.length) :
    s.Reads b history (s.tryReceive b).1 (s.tryReceive b).2.toList := by
  have place := oldest_le h behind
  have seen := unread_eq h behind
  rcases tryReceive_cases h behind with
    ⟨none, received⟩ | ⟨leftOut, event, later, unread, refused, accepted, received⟩
  · rw [received]
    refine ⟨rfl, h.published ▸ place, Nat.le_of_eq h.published, ?_⟩
    rw [List.take_of_length_le (by simp [h.published]), ← seen, none]
    rfl
  · have length := congrArg List.length (seen.symm.trans unread)
    rw [List.length_drop, List.length_append, List.length_cons] at length
    rw [received]
    have next : b.published - later.length = s.oldest b + (leftOut.length + 1) := by
      rw [h.published]
      omega
    rw [next]
    refine ⟨rfl, Nat.le_add_right .., by dsimp only; omega, ?_⟩
    have read : (leftOut ++ event :: later).take (leftOut.length + 1) = leftOut ++ [event] := by
      simp [List.take_append, List.take_of_length_le]
    rw [Nat.add_sub_cancel_left, ← seen, unread, read, List.filter_append, refused]
    simp [accepted]

theorem reads_drain (h : b.Holds history) (behind : s.next ≤ history.length) :
    s.Reads b history (s.drain b).1 (s.drain b).2 := by
  rw [drain_eq h behind]
  refine ⟨rfl, ?_, Nat.le_of_eq h.published, ?_⟩
  · rw [h.published]
    exact oldest_le h behind
  · rw [unread_eq h behind, List.take_of_length_le (by simp [h.published])]

end Subscriber

end TraceDebug

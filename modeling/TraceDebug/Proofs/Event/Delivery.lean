import Mathlib.Data.List.Basic
import Mathlib.Data.List.Induction
import TraceDebug.Event.Exchange
import TraceDebug.Proofs.Event.Bus

/-!
# What subscribers receive

A bus in use: events are published, subscribers come, and each receives when it likes. A
run is a list of such actions, so that a statement about all lists is one about all
interleavings. One subscriber is followed through a run, beside all others.
-/

namespace TraceDebug

structure Traffic where
  exchange : Exchange
  /-- Everything that was published, the oldest first. -/
  history : List SessionEvent
  /-- What each subscriber was given, by number. -/
  received : List (List SessionEvent)

namespace Traffic

inductive Action where
  | publish (event : SessionEvent)
  | subscribe (kinds : Option (List EventKind))
  | tryReceive (number : Nat)
  | drain (number : Nat)

/-- The action is one of receiving, by the subscriber of a number. -/
inductive Action.Receives (number : Nat) : Action → Prop where
  | tryReceive : Receives number (.tryReceive number)
  | drain : Receives number (.drain number)

def start (x : Exchange) : Traffic := ⟨x, [], []⟩

/-- An action that the exchange refuses changes nothing. -/
def perform (t : Traffic) : Action → Traffic
  | .publish event =>
    match t.exchange.publish [event] with
    | .ok exchange => { t with exchange, history := t.history ++ [event] }
    | .error _ => t
  | .subscribe kinds =>
    match t.exchange.subscribe kinds with
    | .ok (exchange, _) => { t with exchange, received := t.received ++ [[]] }
    | .error _ => t
  | .tryReceive number =>
    match t.exchange.tryReceive number with
    | .ok (exchange, event) =>
      { t with exchange, received := t.received.modify number (· ++ event.toList) }
    | .error _ => t
  | .drain number =>
    match t.exchange.drain number with
    | .ok (exchange, events) =>
      { t with exchange, received := t.received.modify number (· ++ events) }
    | .error _ => t

def run (t : Traffic) (actions : List Action) : Traffic := actions.foldl perform t

theorem run_concat (t : Traffic) (actions : List Action) (action : Action) :
    t.run (actions ++ [action]) = (t.run actions).perform action := by
  simp [run]

/-- The bus is there, with its capacity, and holds the newest events. -/
structure Sound (capacity : Nat) (t : Traffic) : Prop where
  isOpen : t.exchange.isOpen = true
  capacity : t.exchange.bus.capacity = capacity
  holds : t.exchange.bus.Holds t.history
  seats : t.received.length = t.exchange.subscribers.length

/-- A subscriber in its place, with what it was given so far. -/
structure Seat (t : Traffic) (number : Nat) (s : Subscriber) (given : List SessionEvent) :
    Prop where
  subscriber : t.exchange.subscribers[number]? = some (some s)
  received : t.received[number]? = some given
  behind : s.next ≤ t.history.length

/-- Let a subscriber go on and give it some events. -/
def give (t : Traffic) (number : Nat) (s : Subscriber) (events : List SessionEvent) : Traffic :=
  { t with
    exchange := t.exchange.put number (some s)
    received := t.received.modify number (· ++ events) }

variable {t : Traffic} {capacity number : Nat} {s : Subscriber} {given : List SessionEvent}

theorem reserve_eq_ok {x : Exchange} (reserved : Exchange.reserve capacity = .ok x) :
    x = ⟨.new capacity, true, []⟩ := by
  obtain ⟨b, room, made⟩ := Checked.bind_eq_ok.mp reserved
  cases made
  rw [Bus.reserve_eq_ok room]

theorem sound_start {x : Exchange} (reserved : Exchange.reserve capacity = .ok x) :
    (start x).Sound x.bus.capacity := by
  obtain rfl := reserve_eq_ok reserved
  exact ⟨rfl, rfl, Bus.holds_new capacity, rfl⟩

theorem Sound.give (h : t.Sound capacity) (number : Nat) (s : Subscriber)
    (events : List SessionEvent) : (t.give number s events).Sound capacity where
  isOpen := h.isOpen
  capacity := h.capacity
  holds := h.holds
  seats := by simpa [Traffic.give, Exchange.put] using h.seats

theorem Seat.give (h : t.Seat number s given) {u : Subscriber} (inside : u.next ≤ t.history.length)
    (more : List SessionEvent) : (t.give number u more).Seat number u (given ++ more) where
  subscriber := by
    obtain ⟨bound, -⟩ := List.getElem?_eq_some_iff.mp h.subscriber
    simp [Traffic.give, Exchange.put, bound]
  received := by simp [Traffic.give, h.received]
  behind := inside

theorem Seat.give_other (h : t.Seat number s given) {other : Nat} (elsewhere : other ≠ number)
    (u : Subscriber) (more : List SessionEvent) : (t.give other u more).Seat number s given where
  subscriber := by simp [Traffic.give, Exchange.put, elsewhere, h.subscriber]
  received := by simp [Traffic.give, elsewhere, h.received]
  behind := h.behind

theorem subscriber_eq_ok_iff : t.exchange.subscriber number = .ok s ↔
    t.exchange.subscribers[number]? = some (some s) := by
  unfold Exchange.subscriber
  rw [← Option.join_eq_some_iff]
  split <;> simp_all

theorem Seat.subscriber_eq_ok (h : t.Seat number s given) :
    t.exchange.subscriber number = .ok s :=
  subscriber_eq_ok_iff.mpr h.subscriber

theorem perform_publish (h : t.Sound capacity) (event : SessionEvent) :
    t.perform (.publish event) =
      { t with
        exchange := { t.exchange with bus := t.exchange.bus.publish event }
        history := t.history ++ [event] } := by
  simp [perform, Exchange.publish, h.isOpen, Bus.publishAll]

theorem perform_subscribe (h : t.Sound capacity) (kinds : Option (List EventKind)) :
    t.perform (.subscribe kinds) =
      { t with
        exchange := { t.exchange with
          subscribers := t.exchange.subscribers ++ [some (t.exchange.bus.subscribe kinds)] }
        received := t.received ++ [[]] } := by
  simp [perform, Exchange.subscribe, h.isOpen]

theorem perform_tryReceive (found : t.exchange.subscriber number = .ok s) :
    t.perform (.tryReceive number) =
      t.give number (s.tryReceive t.exchange.bus).1 (s.tryReceive t.exchange.bus).2.toList := by
  simp only [perform, Exchange.tryReceive, found]
  rfl

theorem perform_drain (found : t.exchange.subscriber number = .ok s) :
    t.perform (.drain number) =
      t.give number (s.drain t.exchange.bus).1 (s.drain t.exchange.bus).2 := by
  simp only [perform, Exchange.drain, found]
  rfl

/-- Receiving gives something to one subscriber, if it is there, and does no more. -/
theorem perform_receive {action : Action} (receives : action.Receives number) :
    t.perform action = t ∨ ∃ u more, t.perform action = t.give number u more := by
  cases found : t.exchange.subscriber number with
  | error dropped =>
    left
    cases receives with
    | tryReceive =>
      simp only [perform, Exchange.tryReceive, found]
      rfl
    | drain =>
      simp only [perform, Exchange.drain, found]
      rfl
  | ok u =>
    right
    cases receives with
    | tryReceive => exact ⟨_, _, perform_tryReceive found⟩
    | drain => exact ⟨_, _, perform_drain found⟩

theorem Sound.perform (h : t.Sound capacity) (action : Action) :
    (t.perform action).Sound capacity := by
  have receiving : ∀ {number}, action.Receives number → (t.perform action).Sound capacity := by
    intro number receives
    rcases perform_receive (t := t) receives with same | ⟨u, more, gave⟩
    · rw [same]
      exact h
    · rw [gave]
      exact h.give number u more
  cases action with
  | publish event =>
    rw [perform_publish h]
    exact ⟨h.isOpen, h.capacity, h.holds.publish event, h.seats⟩
  | subscribe kinds =>
    rw [perform_subscribe h]
    exact ⟨h.isOpen, h.capacity, h.holds, by simp [h.seats]⟩
  | tryReceive number => exact receiving .tryReceive
  | drain number => exact receiving .drain

theorem Sound.run (h : t.Sound capacity) (actions : List Action) :
    (t.run actions).Sound capacity := by
  induction actions generalizing t with
  | nil => exact h
  | cons action actions ih => exact ih (h.perform action)

/-- The events that an action publishes. -/
def Action.events : Action → List SessionEvent
  | .publish event => [event]
  | .subscribe _ | .tryReceive _ | .drain _ => []

theorem history_perform (h : t.Sound capacity) (action : Action) :
    (t.perform action).history = t.history ++ action.events := by
  have receiving : ∀ {number}, action.Receives number →
      (t.perform action).history = t.history ++ [] := by
    intro number receives
    rw [List.append_nil]
    rcases perform_receive (t := t) receives with same | ⟨u, more, gave⟩
    · rw [same]
    · rw [gave]
      rfl
  cases action with
  | publish event => rw [perform_publish h]; rfl
  | subscribe kinds => rw [perform_subscribe h]; exact (List.append_nil _).symm
  | tryReceive number => exact receiving .tryReceive
  | drain number => exact receiving .drain

/-- What an action does to one subscriber, and what it gives it. -/
inductive Step (b : Bus) (number : Nat) (s : Subscriber) :
    Action → Subscriber → List SessionEvent → Prop where
  | still {action : Action} (other : ¬ action.Receives number) : Step b number s action s []
  | tried : Step b number s (.tryReceive number) (s.tryReceive b).1 (s.tryReceive b).2.toList
  | drained : Step b number s (.drain number) (s.drain b).1 (s.drain b).2

theorem Seat.step (h : t.Seat number s given) (sound : t.Sound capacity) (action : Action) :
    ∃ u more, Step t.exchange.bus number s action u more ∧
      (t.perform action).Seat number u (given ++ more) := by
  have other : ¬ action.Receives number → (t.perform action).Seat number s given →
      ∃ u more, Step t.exchange.bus number s action u more ∧
        (t.perform action).Seat number u (given ++ more) := by
    intro other kept
    exact ⟨s, [], .still other, by rw [List.append_nil]; exact kept⟩
  have elsewhere : ∀ {place}, action.Receives place → place ≠ number →
      (t.perform action).Seat number s given := by
    intro place receives elsewhere
    rcases perform_receive (t := t) receives with same | ⟨u, more, gave⟩
    · rw [same]
      exact h
    · rw [gave]
      exact h.give_other elsewhere u more
  obtain ⟨bound, -⟩ := List.getElem?_eq_some_iff.mp h.subscriber
  obtain ⟨bound', -⟩ := List.getElem?_eq_some_iff.mp h.received
  cases action with
  | publish event =>
    refine other nofun ?_
    rw [perform_publish sound]
    exact ⟨h.subscriber, h.received, by simpa using Nat.le_succ_of_le h.behind⟩
  | subscribe kinds =>
    refine other nofun ?_
    rw [perform_subscribe sound]
    exact ⟨by rw [List.getElem?_append_left bound]; exact h.subscriber,
      by rw [List.getElem?_append_left bound']; exact h.received, h.behind⟩
  | tryReceive place =>
    by_cases own : place = number
    · subst own
      have reads := Subscriber.reads_tryReceive sound.holds h.behind
      rw [perform_tryReceive h.subscriber_eq_ok]
      exact ⟨_, _, .tried, h.give reads.inside _⟩
    · refine other ?_ (elsewhere .tryReceive own)
      rintro ⟨⟩
      exact own rfl
  | drain place =>
    by_cases own : place = number
    · subst own
      have reads := Subscriber.reads_drain sound.holds h.behind
      rw [perform_drain h.subscriber_eq_ok]
      exact ⟨_, _, .drained, h.give reads.inside _⟩
    · refine other ?_ (elsewhere .drain own)
      rintro ⟨⟩
      exact own rfl

theorem Step.kinds {b : Bus} {action : Action} {u : Subscriber} {more : List SessionEvent}
    (h : Step b number s action u more) : u.kinds = s.kinds := by
  cases h with
  | still => rfl
  | tried => exact Subscriber.kinds_of_loops (s.loops_tryReceive b)
  | drained => exact Subscriber.kinds_of_loopsOut (s.loopsOut_drain b)

/-- A step is not the subscriber's, or it reads. -/
theorem Step.reads {action : Action} {u : Subscriber} {more : List SessionEvent}
    (h : Step t.exchange.bus number s action u more) (sound : t.Sound capacity)
    (behind : s.next ≤ t.history.length) :
    (¬ action.Receives number ∧ u = s ∧ more = []) ∨
      action.Receives number ∧ s.Reads t.exchange.bus t.history u more := by
  cases h with
  | still other => exact .inl ⟨other, rfl, rfl⟩
  | tried => exact .inr ⟨.tryReceive, Subscriber.reads_tryReceive sound.holds behind⟩
  | drained => exact .inr ⟨.drain, Subscriber.reads_drain sound.holds behind⟩

/-- At one of its receives the subscriber had not read the event of a position, and there
were too many later ones for the bus to hold it. -/
def Skips (t : Traffic) (actions : List Action) (number position : Nat) : Prop :=
  ∃ earlier action later s, actions = earlier ++ action :: later ∧ action.Receives number ∧
    (t.run earlier).exchange.subscriber number = .ok s ∧ s.next ≤ position ∧
    position + (t.run earlier).exchange.bus.capacity < (t.run earlier).history.length

theorem skips_concat {actions : List Action} {action : Action} {position : Nat} :
    t.Skips (actions ++ [action]) number position ↔
      t.Skips actions number position ∨ action.Receives number ∧ ∃ s,
        (t.run actions).exchange.subscriber number = .ok s ∧ s.next ≤ position ∧
        position + (t.run actions).exchange.bus.capacity < (t.run actions).history.length := by
  constructor
  · rintro ⟨earlier, receive, later, s, eq, receives, lagging⟩
    rcases List.eq_nil_or_concat later with rfl | ⟨later, last, rfl⟩
    · obtain ⟨rfl, same⟩ := List.append_inj' eq rfl
      cases List.singleton_inj.mp same
      exact .inr ⟨receives, s, lagging⟩
    · rw [List.concat_eq_append, ← List.cons_append, ← List.append_assoc] at eq
      exact .inl ⟨earlier, receive, later, s, (List.append_inj' eq rfl).1, receives, lagging⟩
  · rintro (⟨earlier, receive, later, s, rfl, known⟩ | ⟨receives, s, lagging⟩)
    · exact ⟨earlier, receive, later ++ [action], s, by simp, known⟩
    · exact ⟨actions, action, [], s, rfl, receives, lagging⟩

/-- What a receive adds to that are the positions up to the first that the bus still holds. -/
theorem Seat.skips_concat_receive {actions : List Action}
    (h : (t.run actions).Seat number s given) (sound : (t.run actions).Sound capacity)
    {action : Action} (own : action.Receives number) (p : Nat) :
    t.Skips (actions ++ [action]) number p ↔
      t.Skips actions number p ∨ s.next ≤ p ∧ p < s.oldest (t.run actions).exchange.bus := by
  have published := sound.holds.published
  have behind := h.behind
  rw [skips_concat, Subscriber.oldest]
  refine or_congr_right ⟨?_, ?_⟩
  · rintro ⟨-, u, found, unread, lost⟩
    cases h.subscriber_eq_ok.symm.trans found
    omega
  · rintro ⟨unread, lost⟩
    exact ⟨own, s, h.subscriber_eq_ok, unread, by omega⟩

theorem accepts_congr {u : Subscriber} (same : u.kinds = s.kinds) : u.accepts = s.accepts := by
  funext event
  rw [Subscriber.accepts, Subscriber.accepts, same]

/-- The events at some positions, in the order of the positions. -/
def eventsAt (history : List SessionEvent) (positions : List Nat) : List SessionEvent :=
  positions.filterMap (history[·]?)

theorem eventsAt_range' {history : List SessionEvent} {first count : Nat}
    (inside : first + count ≤ history.length) :
    eventsAt history (List.range' first count) = (history.drop first).take count := by
  induction count generalizing first with
  | zero => simp [eventsAt]
  | succ count ih =>
    have bound : first < history.length := by omega
    rw [List.range'_succ, eventsAt, List.filterMap_cons, List.getElem?_eq_getElem bound,
      List.drop_eq_getElem_cons bound, List.take_succ_cons]
    exact congrArg _ (ih (by omega))

/-- A subscriber has read just the positions before its own that it did not skip, and it
was given what it accepts of them. -/
structure Accounts (joined : Traffic) (number : Nat) (actions : List Action) (s : Subscriber)
    (given : List SessionEvent) (positions : List Nat) : Prop where
  seat : (joined.run actions).Seat number s given
  start : joined.history.length ≤ s.next
  skipped : ∀ p, joined.Skips actions number p → p < s.next
  ascending : positions.Pairwise (· < ·)
  mem_iff : ∀ p, p ∈ positions ↔
    joined.history.length ≤ p ∧ p < s.next ∧ ¬ joined.Skips actions number p
  given : given = (eventsAt (joined.run actions).history positions).filter s.accepts

variable {joined : Traffic} {actions : List Action} {positions : List Nat}

theorem Accounts.still (h : Accounts joined number actions s given positions)
    (sound : joined.Sound capacity) {action : Action} (other : ¬ action.Receives number)
    (seat : ((joined.run actions).perform action).Seat number s given) :
    Accounts joined number (actions ++ [action]) s given positions := by
  have same : ∀ p, joined.Skips (actions ++ [action]) number p ↔ joined.Skips actions number p := by
    intro p
    simp [skips_concat, other]
  have kept : eventsAt (joined.run (actions ++ [action])).history positions =
      eventsAt (joined.run actions).history positions := by
    apply List.filterMap_congr
    intro p mem
    have before := ((h.mem_iff p).mp mem).2.1
    have inside := h.seat.behind
    rw [run_concat, history_perform (sound.run actions), List.getElem?_append_left (by omega)]
  exact {
    seat := by rw [run_concat]; exact seat
    start := h.start
    skipped := fun p skips => h.skipped p ((same p).mp skips)
    ascending := h.ascending
    mem_iff := fun p => by rw [same]; exact h.mem_iff p
    given := by rw [kept]; exact h.given }

theorem Accounts.reads (h : Accounts joined number actions s given positions)
    (sound : joined.Sound capacity) {action : Action} {u : Subscriber}
    {more : List SessionEvent} (own : action.Receives number)
    (reads : s.Reads (joined.run actions).exchange.bus (joined.run actions).history u more)
    (seat : ((joined.run actions).perform action).Seat number u (given ++ more)) :
    ∃ positions', Accounts joined number (actions ++ [action]) u (given ++ more) positions' := by
  obtain ⟨kinds, forward, inside, rfl⟩ := reads
  have after := sound.run actions
  have skips := h.seat.skips_concat_receive after own
  have started : s.next ≤ s.oldest (joined.run actions).exchange.bus := Nat.le_max_left ..
  generalize s.oldest (joined.run actions).exchange.bus = first at *
  have history : (joined.run (actions ++ [action])).history = (joined.run actions).history := by
    rw [run_concat, history_perform after]
    cases own <;> exact List.append_nil _
  refine ⟨positions ++ List.range' first (u.next - first), ?_⟩
  exact {
    seat := by rw [run_concat]; exact seat
    start := by have := h.start; omega
    skipped := by
      intro p missed
      rcases (skips p).mp missed with old | ⟨-, lost⟩
      · have := h.skipped p old
        omega
      · omega
    ascending := by
      refine List.pairwise_append.mpr ⟨h.ascending, List.pairwise_lt_range', ?_⟩
      intro p mem q later
      have before := ((h.mem_iff p).mp mem).2.1
      have beyond := (List.mem_range'_1.mp later).1
      omega
    mem_iff := by
      intro p
      rw [List.mem_append, h.mem_iff, List.mem_range'_1, skips]
      have start := h.start
      by_cases before : p < s.next
      · have unread : ¬ (s.next ≤ p ∧ p < first) := by omega
        simp only [unread, or_false]
        constructor
        · rintro (⟨from', -, kept⟩ | ⟨beyond, -⟩)
          · exact ⟨from', by omega, kept⟩
          · omega
        · rintro ⟨from', -, kept⟩
          exact .inl ⟨from', before, kept⟩
      · have kept : ¬ joined.Skips actions number p := fun missed => before (h.skipped p missed)
        simp only [kept, false_or, not_false_eq_true, and_true]
        omega
    given := by
      have split : eventsAt (joined.run actions).history
          (positions ++ List.range' first (u.next - first)) =
          eventsAt (joined.run actions).history positions ++
            ((joined.run actions).history.drop first).take (u.next - first) := by
        rw [← eventsAt_range' (by omega)]
        exact List.filterMap_append
      rw [history, split, List.filter_append, accepts_congr kinds, ← h.given] }

theorem exists_accounts (sound : joined.Sound capacity) (seat : joined.Seat number s [])
    (first : s.next = joined.history.length) (actions : List Action) :
    ∃ u given positions, u.kinds = s.kinds ∧ joined.Accounts number actions u given positions := by
  induction actions using List.reverseRecOn with
  | nil =>
    have none : ∀ p, ¬ joined.Skips [] number p := by
      rintro p ⟨earlier, action, later, u, eq, -⟩
      simp at eq
    refine ⟨s, [], [], rfl, seat, Nat.le_of_eq first.symm, ?_, .nil, ?_, rfl⟩
    · exact fun p missed => absurd missed (none p)
    · intro p
      simp only [List.not_mem_nil, false_iff, not_and]
      omega
  | append_singleton actions action ih =>
    obtain ⟨u, given, positions, kinds, accounts⟩ := ih
    have after := sound.run actions
    obtain ⟨v, more, step, seat⟩ := accounts.seat.step after action
    rcases step.reads after accounts.seat.behind with ⟨other, rfl, rfl⟩ | ⟨own, reads⟩
    · rw [List.append_nil] at seat
      exact ⟨v, given, positions, kinds, accounts.still sound other seat⟩
    · obtain ⟨positions', accounts'⟩ := accounts.reads sound own reads seat
      exact ⟨v, given ++ more, positions', step.kinds.trans kinds, accounts'⟩

/-- What a run shows to one subscriber: what is published, and when it receives itself. -/
inductive Sight where
  | published (event : SessionEvent)
  | tried
  | drained

def Action.sight (number : Nat) : Action → Option Sight
  | .publish event => some (.published event)
  | .subscribe _ => none
  | .tryReceive place => if place = number then some .tried else none
  | .drain place => if place = number then some .drained else none

def seen (number : Nat) (actions : List Action) : List Sight :=
  actions.filterMap (Action.sight number)

/-- A subscriber without a bus: the events that it has not read, and those it was given. -/
structure Reader where
  unread : List SessionEvent
  given : List SessionEvent

def Reader.see (capacity : Nat) (accepts : SessionEvent → Bool) (r : Reader) : Sight → Reader
  | .published event => { r with unread := r.unread ++ [event] }
  | .tried =>
    match (newest capacity r.unread).dropWhile fun event => !accepts event with
    | [] => { r with unread := [] }
    | event :: later => ⟨later, r.given ++ [event]⟩
  | .drained => ⟨[], r.given ++ (newest capacity r.unread).filter accepts⟩

def reader (t : Traffic) (s : Subscriber) (given : List SessionEvent) : Reader :=
  ⟨t.history.drop s.next, given⟩

theorem Seat.see (h : t.Seat number s given) (sound : t.Sound capacity) {action : Action}
    {u : Subscriber} {more : List SessionEvent}
    (step : Step t.exchange.bus number s action u more) :
    (t.perform action).reader u (given ++ more) =
      (action.sight number).elim (t.reader s given)
        ((t.reader s given).see capacity s.accepts) := by
  have unread := Subscriber.unread_eq_newest sound.holds h.behind
  rw [sound.capacity] at unread
  rw [reader, history_perform sound]
  cases step with
  | still other =>
    rw [List.append_nil]
    cases action with
    | publish event =>
      rw [Action.events, List.drop_append_of_le_length h.behind]
      rfl
    | subscribe kinds =>
      rw [Action.events, List.append_nil]
      rfl
    | tryReceive place =>
      have elsewhere : place ≠ number := fun same => other (same ▸ .tryReceive)
      rw [Action.events, List.append_nil, Action.sight, if_neg elsewhere]
      rfl
    | drain place =>
      have elsewhere : place ≠ number := fun same => other (same ▸ .drain)
      rw [Action.events, List.append_nil, Action.sight, if_neg elsewhere]
      rfl
  | tried =>
    rw [Action.events, List.append_nil, Action.sight, if_pos rfl, Option.elim_some,
      Subscriber.tryReceive_eq sound.holds h.behind, unread, sound.holds.published]
    simp only [Reader.see, reader]
    cases rest : (newest capacity (t.history.drop s.next)).dropWhile
        fun event => !s.accepts event with
    | nil => simp
    | cons event later =>
      have suffix : later <:+ t.history := by
        have after := List.dropWhile_suffix (l := newest capacity (t.history.drop s.next))
          fun event => !s.accepts event
        rw [rest] at after
        exact ((List.suffix_cons event later).trans after).trans
          ((List.drop_suffix _ _).trans (List.drop_suffix _ _))
      simp [← List.suffix_iff_eq_drop.mp suffix]
  | drained =>
    rw [Action.events, List.append_nil, Action.sight, if_pos rfl, Option.elim_some,
      Subscriber.drain_eq sound.holds h.behind, unread, sound.holds.published]
    simp [Reader.see, reader]

/-- Through a run a subscriber goes as a reader goes that sees what concerns it. -/
theorem Seat.follow (h : t.Seat number s given) (sound : t.Sound capacity)
    (actions : List Action) :
    ∃ u given', (t.run actions).Seat number u given' ∧ (t.run actions).reader u given' =
      (seen number actions).foldl (Reader.see capacity s.accepts) (t.reader s given) := by
  induction actions generalizing t s given with
  | nil => exact ⟨s, given, h, rfl⟩
  | cons action actions ih =>
    obtain ⟨u, more, step, seat⟩ := h.step sound action
    obtain ⟨v, given', last, followed⟩ := ih seat (sound.perform action)
    refine ⟨v, given', last, followed.trans ?_⟩
    rw [h.see sound step, accepts_congr step.kinds, seen, seen, List.filterMap_cons]
    cases action.sight number <;> rfl

theorem history_run (sound : t.Sound capacity) (actions : List Action) :
    (t.run actions).history = t.history ++ actions.flatMap Action.events := by
  induction actions generalizing t with
  | nil => exact (List.append_nil _).symm
  | cons action actions ih =>
    rw [List.flatMap_cons, ← List.append_assoc, ← history_perform sound]
    exact ih (sound.perform action)

/-- A new bus after a run, and a subscription at its end. -/
def joining (x : Exchange) (before : List Action) (kinds : Option (List EventKind)) : Traffic :=
  ((start x).run before).perform (.subscribe kinds)

/-- The number of the subscriber that comes after a run. -/
def newcomer (x : Exchange) (before : List Action) : Nat :=
  ((start x).run before).exchange.subscribers.length

/-- A new subscriber takes its place, and sees what is published from then on. -/
theorem seat_joining {x : Exchange} (reserved : Exchange.reserve capacity = .ok x)
    (before : List Action) (kinds : Option (List EventKind)) :
    (joining x before kinds).Sound x.bus.capacity ∧
      (joining x before kinds).Seat (newcomer x before)
        ⟨⟨(joining x before kinds).history.length⟩, kinds⟩ [] := by
  have sound := (sound_start reserved).run before
  refine ⟨sound.perform (.subscribe kinds), ?_⟩
  rw [joining, newcomer, perform_subscribe sound]
  refine ⟨?_, ?_, Nat.le_refl _⟩
  · rw [List.getElem?_concat_length, Bus.subscribe, Channel.receiver, sound.holds.published]
  · rw [← sound.seats, List.getElem?_concat_length]

/-- What a subscriber was given from its subscription on, and what it is given next. -/
structure Delivered (capacity : Nat) (joined : Traffic) (number : Nat)
    (kinds : Option (List EventKind)) (actions : List Action) (s : Subscriber)
    (given : List SessionEvent) : Prop where
  subscriber : (joined.run actions).exchange.subscriber number = .ok s
  kinds : s.kinds = kinds
  received : (joined.run actions).received[number]? = some given
  places : (joined.run actions).exchange.bus.capacity = capacity
  history : (joined.run actions).history = joined.history ++ actions.flatMap Action.events
  inside : joined.history.length ≤ s.next ∧ s.next ≤ (joined.run actions).history.length
  /-- In their order and each at most once, it was given the events of its kinds that it
  has read, and it has read all but those it skipped. -/
  ordered : ∃ positions : List Nat, positions.Pairwise (· < ·) ∧
    (∀ p, p ∈ positions ↔
      joined.history.length ≤ p ∧ p < s.next ∧ ¬ joined.Skips actions number p) ∧
    given = (eventsAt (joined.run actions).history positions).filter s.accepts
  tried : ∃ y u event, (joined.run actions).exchange.tryReceive number = .ok (y, event) ∧
    event = (newest capacity ((joined.run actions).history.drop s.next)).find? s.accepts ∧
    y.subscriber number = .ok u ∧ Subscriber.Loops (joined.run actions).exchange.bus s u event ∧
    (event = none → u.next = (joined.run actions).history.length)
  drained : ∃ y u events, (joined.run actions).exchange.drain number = .ok (y, events) ∧
    events = (newest capacity ((joined.run actions).history.drop s.next)).filter s.accepts ∧
    y.subscriber number = .ok u ∧
    Subscriber.LoopsOut (joined.run actions).exchange.bus s u events ∧
    u.next = (joined.run actions).history.length

theorem Accounts.delivered (h : Accounts joined number actions s given positions)
    (sound : joined.Sound capacity) : Delivered capacity joined number s.kinds actions s given := by
  have after := sound.run actions
  have found := h.seat.subscriber_eq_ok
  have behind := h.seat.behind
  have unread := Subscriber.unread_eq_newest after.holds behind
  rw [after.capacity] at unread
  exact {
    subscriber := found
    kinds := rfl
    received := h.seat.received
    places := after.capacity
    history := history_run sound actions
    inside := ⟨h.start, behind⟩
    ordered := ⟨positions, h.ascending, h.mem_iff, h.given⟩
    tried := by
      have reads := Subscriber.reads_tryReceive after.holds behind
      refine ⟨_, _, _, ?_, ?_, (h.seat.give reads.inside []).subscriber_eq_ok,
        s.loops_tryReceive _, ?_⟩
      · simp only [Exchange.tryReceive, found]
        rfl
      · rw [Subscriber.tryReceive_snd after.holds behind, unread]
      · intro none
        rw [Subscriber.next_tryReceive after.holds behind none, after.holds.published]
    drained := by
      have reads := Subscriber.reads_drain after.holds behind
      refine ⟨_, _, _, ?_, ?_, (h.seat.give reads.inside []).subscriber_eq_ok,
        s.loopsOut_drain _, ?_⟩
      · simp only [Exchange.drain, found]
        rfl
      · rw [Subscriber.drain_eq after.holds behind, unread]
      · rw [Subscriber.drain_eq after.holds behind, after.holds.published] }

/-- What a subscriber was given can be told from what concerns it. -/
theorem received_eq (sound : joined.Sound capacity) (seat : joined.Seat number s [])
    (first : s.next = joined.history.length) (actions : List Action) :
    (joined.run actions).received[number]? =
      some ((seen number actions).foldl (Reader.see capacity s.accepts) ⟨[], []⟩).given := by
  obtain ⟨u, given, last, followed⟩ := seat.follow sound actions
  have fresh : joined.reader s [] = ⟨[], []⟩ := by simp [reader, first]
  rw [last.received, ← fresh, ← followed, reader]

/-- Under every interleaving a subscriber is given, in their order and each once, all events
of its kinds since it came, but for those that it was too far behind for. How others
receive, what they leave out and what was before makes no difference. -/
theorem events_delivered {capacity : Nat} {x : Exchange}
    (reserved : Exchange.reserve capacity = .ok x) (before : List Action)
    (kinds : Option (List EventKind)) (actions : List Action) :
    IsLeast {c | (∃ i, c = 2 ^ i) ∧ max capacity 1 ≤ c} x.bus.capacity ∧
    (∃ s given, Delivered x.bus.capacity (joining x before kinds) (newcomer x before) kinds
      actions s given) ∧
    ∀ before' actions',
      seen (newcomer x before) actions = seen (newcomer x before') actions' →
      ((joining x before kinds).run actions).received[newcomer x before]? =
        ((joining x before' kinds).run actions').received[newcomer x before']? := by
  obtain ⟨sound, seat⟩ := seat_joining reserved before kinds
  refine ⟨?_, ?_, ?_⟩
  · rw [reserve_eq_ok reserved]
    have least := isLeast_roundUpPowerOfTwo (max capacity 1)
    rwa [Nat.max_assoc, Nat.max_self] at least
  · obtain ⟨s, given, positions, rfl, accounts⟩ := exists_accounts sound seat rfl actions
    exact ⟨s, given, accounts.delivered sound⟩
  · intro before' actions' same
    obtain ⟨sound', seat'⟩ := seat_joining reserved before' kinds
    rw [received_eq sound seat rfl, received_eq sound' seat' rfl, same]
    rfl

/-- Two places for events, and nobody to receive them yet. -/
def narrow : Exchange := ⟨.new 2, true, []⟩

/-- The first subscriber is three events behind when it receives. -/
def lagging : List Action :=
  [.publish (.cursorChanged 1), .subscribe none, .publish (.statusChanged true),
    .publish (.cursorChanged 2), .publish (.statusChanged false), .tryReceive 0,
    .publish (.cursorChanged 3), .drain 1, .drain 0]

/-- The same for the first subscriber, without the second one. -/
def laggingAlone : List Action :=
  [.publish (.cursorChanged 1), .publish (.statusChanged true), .publish (.cursorChanged 2),
    .publish (.statusChanged false), .tryReceive 0, .publish (.cursorChanged 3), .drain 0]

theorem lagging_delivered :
    Exchange.reserve 2 = .ok narrow ∧ IsLeast {c | (∃ i, c = 2 ^ i) ∧ max 2 1 ≤ c} 2 ∧
    (∃ s, Delivered 2 (joining narrow [.publish .unloaded] (some [.cursorChanged])) 0
      (some [.cursorChanged]) lagging s [.cursorChanged 2, .cursorChanged 3]) ∧
    (joining narrow [.publish .unloaded] (some [.cursorChanged])).Skips lagging 0 1 ∧
    ((joining narrow [] (some [.cursorChanged])).run laggingAlone).received[0]? =
      some [.cursorChanged 2, .cursorChanged 3] := by
  have reserved : Exchange.reserve 2 = .ok narrow := by rfl
  obtain ⟨least, ⟨s, given, delivered⟩, alone⟩ :=
    events_delivered reserved [.publish .unloaded] (some [.cursorChanged]) lagging
  have received : ((joining narrow [.publish .unloaded]
      (some [.cursorChanged])).run lagging).received[0]? =
        some [.cursorChanged 2, .cursorChanged 3] := by decide +kernel
  obtain rfl : given = [.cursorChanged 2, .cursorChanged 3] :=
    Option.some.inj (delivered.received.symm.trans received)
  refine ⟨reserved, least, ⟨s, delivered⟩, ?_, (alone [] laggingAlone rfl).symm.trans received⟩
  exact ⟨lagging.take 5, .tryReceive 0, lagging.drop 6, ⟨⟨1⟩, some [.cursorChanged]⟩, rfl,
    .tryReceive, rfl, Nat.le_refl 1, by decide +kernel⟩

end Traffic

end TraceDebug

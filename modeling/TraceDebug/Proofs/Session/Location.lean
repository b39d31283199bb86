import Mathlib.Data.List.Induction
import Mathlib.Data.List.Perm.Basic
import TraceDebug.Proofs.LoadedTrace
import TraceDebug.Proofs.Session.Progress

/-!
# Locations of moves

Every move of the cursor starts one resolution. While the move is the last one, its
resolution is under way or its location was published, and never both; resolutions
of earlier moves and of earlier traces end without a word.
-/

namespace TraceDebug

namespace Session

/-- A turn leaves the tags alone, makes the next move, or goes to a later generation. -/
theorem Change.tags {s s' : Session} {pending : Option IndexResult} {events : List SessionEvent}
    {started : Option Resolution} (change : s.Change pending s' events started) :
    (s'.generation = s.generation ∧ s'.moves = s.moves ∧
      (s'.status = .loaded ↔ s.status = .loaded) ∧ s'.loaded = s.loaded ∧
      s'.navigator = s.navigator ∧ events = [] ∧ started = none) ∨
    (∃ step before, s'.generation = s.generation ∧ s'.moves = s.moves + 1 ∧
      s'.cursor = some step ∧ events = before ++ [.cursorChanged step] ∧
      started = some ⟨s'.generation, s'.moves, step, s'.loaded, s.breakpoints.artifact⟩) ∨
    (s.generation < s'.generation ∧ s'.moves = s.moves ∧ s'.status ≠ .loaded ∧
      started = none) := by
  cases change with
  | edited => exact .inl ⟨rfl, rfl, Iff.rfl, rfl, rfl, rfl, rfl⟩
  | @moved n step before => exact .inr (.inl ⟨step, before, rfl, rfl, rfl, rfl, rfl⟩)
  | unloaded => exact .inr (.inr ⟨Nat.lt_succ_self _, rfl, by simp, rfl⟩)
  | cancelled => exact .inr (.inr ⟨Nat.lt_succ_self _, rfl, by simp, rfl⟩)
  | awaited => exact .inr (.inr ⟨Nat.lt_succ_self _, rfl, by simp, rfl⟩)
  | replaced =>
    exact .inr (.inr ⟨Nat.lt_trans (Nat.lt_succ_self _) (Nat.lt_succ_self _), rfl, by simp, rfl⟩)
  | failed status => exact .inl ⟨rfl, rfl, by simp [status], rfl, rfl, rfl, rfl⟩
  | installed => exact .inr (.inl ⟨0, [.statusChanged true], rfl, rfl, rfl, rfl, rfl⟩)

/-- Turns publish no locations. -/
theorem Change.not_located {s s' : Session} {pending : Option IndexResult}
    {events : List SessionEvent} {started : Option Resolution}
    (change : s.Change pending s' events started) (location : ResolvedLocation) :
    .locationResolved location ∉ events := by
  cases change with
  | moved _ _ announced => rcases announced with rfl | rfl <;> simp
  | _ => simp

end Session

namespace Activity

/-- The resolutions under way that belong to the last move. -/
def current (x : Activity) : List Resolution := x.resolutions.filter (·.IsCurrent x.session)

/-- The events after the last change of the cursor. -/
def sinceMove (log : List SessionEvent) : List SessionEvent :=
  (log.reverse.takeWhile (·.kind ≠ .cursorChanged)).reverse

/-- The locations published after the last change of the cursor. -/
def located (x : Activity) : List SessionEvent :=
  (sinceMove x.log).filter (·.kind = .locationResolved)

theorem sinceMove_moved (log before : List SessionEvent) (step : Nat) :
    sinceMove (log ++ (before ++ [.cursorChanged step])) = [] := by
  simp [sinceMove, SessionEvent.kind]

theorem sinceMove_located (log : List SessionEvent) (location : ResolvedLocation) :
    sinceMove (log ++ [.locationResolved location]) =
      sinceMove log ++ [.locationResolved location] := by
  simp [sinceMove, SessionEvent.kind]

/-- The tags of resolutions lie in the past, and a resolution with the tags of the
session is for its cursor and its trace. -/
structure Tagged (x : Activity) : Prop where
  consistent : x.session.Consistent
  generation : ∀ r ∈ x.resolutions, r.generation ≤ x.session.generation
  move : ∀ r ∈ x.resolutions, r.move ≤ x.session.moves
  current : ∀ r ∈ x.resolutions, r.IsCurrent x.session →
    r.loaded = x.session.loaded ∧ x.session.cursor = some r.step

theorem tagged_start (config : SessionConfig) (provider : Provider) (converter : Converter) :
    (start config provider converter).Tagged where
  consistent := .empty (by simp [start, Session.new]) rfl rfl
  generation := by simp [start]
  move := by simp [start]
  current := by simp [start]

/-- Fewer resolutions under way keep their tags in order. -/
theorem Tagged.mono {x y : Activity} (h : x.Tagged) (session : y.session = x.session)
    (fewer : ∀ r ∈ y.resolutions, r ∈ x.resolutions) : y.Tagged where
  consistent := session ▸ h.consistent
  generation r mem := session ▸ h.generation r (fewer r mem)
  move r mem := session ▸ h.move r (fewer r mem)
  current r mem current := by
    rw [session] at current ⊢
    exact h.current r (fewer r mem) current

/-- After a move no earlier resolution is current, and after a load or unload none is. -/
theorem Tagged.outdated {x : Activity} (h : x.Tagged) {s : Session}
    (later : (s.generation = x.session.generation ∧ s.moves = x.session.moves + 1) ∨
      x.session.generation < s.generation) :
    ∀ r ∈ x.resolutions, ¬ r.IsCurrent s := by
  intro r mem current
  have old := h.generation r mem
  have before := h.move r mem
  have agree := current
  rw [Resolution.IsCurrent] at agree
  omega

theorem Tagged.progress {x y : Activity} {action : Action} (h : x.Tagged)
    (progress : Progress x action y) : y.Tagged := by
  cases progress with
  | located found _ _ session _ resolutions =>
    exact h.mono session fun r mem => List.mem_of_mem_eraseIdx (resolutions ▸ mem)
  | ended found _ session _ resolutions =>
    exact h.mono session fun r mem => List.mem_of_mem_eraseIdx (resolutions ▸ mem)
  | @turn pending events started _ change log resolutions =>
    have consistent := change.consistent h.consistent
    rcases change.tags with ⟨generation, moves, -, loaded, navigator, -, rfl⟩ |
      ⟨step, before, generation, moves, cursor, -, rfl⟩ | ⟨generation, moves, -, rfl⟩
    · have same : y.resolutions = x.resolutions := by simpa using resolutions
      exact {
        consistent
        generation := by rw [same, generation]; exact h.generation
        move := by rw [same, moves]; exact h.move
        current := by
          rw [same, Session.cursor, loaded, navigator]
          intro r mem current
          rw [Resolution.IsCurrent, generation, moves] at current
          exact h.current r mem current }
    · have outdated := h.outdated (.inl ⟨generation, moves⟩)
      have members : ∀ r ∈ y.resolutions, r ∈ x.resolutions ∨ r = ⟨y.session.generation,
          y.session.moves, step, y.session.loaded, x.session.breakpoints.artifact⟩ := by
        simp [resolutions]
      exact {
        consistent
        generation := by
          intro r mem
          rcases members r mem with mem | rfl
          · exact generation ▸ h.generation r mem
          · exact Nat.le_refl _
        move := by
          intro r mem
          rcases members r mem with mem | rfl
          · exact moves ▸ Nat.le_succ_of_le (h.move r mem)
          · exact Nat.le_refl _
        current := by
          intro r mem current
          rcases members r mem with mem | rfl
          · exact absurd current (outdated r mem)
          · exact ⟨rfl, cursor⟩ }
    · have outdated := h.outdated (.inr generation)
      have same : y.resolutions = x.resolutions := by simpa using resolutions
      rw [← same] at outdated
      exact {
        consistent
        generation := fun r mem =>
          Nat.le_of_lt (Nat.lt_of_le_of_lt (h.generation r (same ▸ mem)) generation)
        move := fun r mem => moves ▸ h.move r (same ▸ mem)
        current := fun r mem current => absurd current (outdated r mem) }

theorem Reachable.tagged {x : Activity} (h : x.Reachable) : x.Tagged :=
  h.invariant tagged_start fun y action _ tagged => tagged.progress (y.progress action)

/-- Of the last move, either the resolution is under way or its location was published. -/
def Settled (x : Activity) : Prop :=
  x.session.status = .loaded → x.current.length + x.located.length = 1

/-- Of what is filtered, an entry that goes away counts if it passes. -/
theorem length_filter_eraseIdx {α : Type} {l : List α} {place : Nat} {a : α}
    (found : l[place]? = some a) (p : α → Bool) :
    (l.filter p).length = ((l.eraseIdx place).filter p).length + if p a then 1 else 0 := by
  obtain ⟨inside, rfl⟩ := List.getElem?_eq_some_iff.mp found
  have split := (List.getElem_cons_eraseIdx_perm inside).countP_eq p
  rw [List.countP_cons] at split
  rw [← List.countP_eq_length_filter, ← List.countP_eq_length_filter]
  exact split.symm

theorem length_current_eraseIdx {x y : Activity} {place : Nat} {r : Resolution}
    (found : x.resolutions[place]? = some r) (session : y.session = x.session)
    (resolutions : y.resolutions = x.resolutions.eraseIdx place) :
    x.current.length = y.current.length + if r.IsCurrent x.session then 1 else 0 := by
  rw [current, current, session, resolutions, length_filter_eraseIdx found]
  simp

/-- With the tags of before, the same resolutions are current. -/
theorem current_eq {x y : Activity} (generation : y.session.generation = x.session.generation)
    (moves : y.session.moves = x.session.moves) (resolutions : y.resolutions = x.resolutions) :
    y.current = x.current := by
  rw [current, resolutions]
  refine List.filter_congr fun r _ => decide_eq_decide.mpr ?_
  rw [Resolution.IsCurrent, Resolution.IsCurrent, generation, moves]

/-- With later tags, only what was started with them is current. -/
theorem current_eq_started {x y : Activity} {started : Option Resolution}
    (outdated : ∀ r ∈ x.resolutions, ¬ r.IsCurrent y.session)
    (resolutions : y.resolutions = x.resolutions ++ started.toList)
    (tagged : ∀ r ∈ started, r.IsCurrent y.session) : y.current = started.toList := by
  have earlier : x.resolutions.filter (·.IsCurrent y.session) = [] := by simpa using outdated
  have later : started.toList.filter (·.IsCurrent y.session) = started.toList :=
    List.filter_eq_self.mpr fun r mem => decide_eq_true (tagged r (Option.mem_toList.mp mem))
  rw [current, resolutions, List.filter_append, earlier, later, List.nil_append]

theorem Settled.progress {x y : Activity} {action : Action} (h : x.Settled) (tagged : x.Tagged)
    (running : ∀ place, action ≠ .crashResolution place) (progress : Progress x action y) :
    y.Settled := by
  intro status
  cases progress with
  | @located place r location found current _ session log resolutions =>
    have fewer := length_current_eraseIdx found session resolutions
    have more : y.located = x.located ++ [.locationResolved location] := by
      simp [Activity.located, log, sinceMove_located, SessionEvent.kind]
    have one := h (session ▸ status)
    rw [if_pos current] at fewer
    rw [more, List.length_append, List.length_singleton]
    omega
  | @ended place r found silent session log resolutions =>
    have fewer := length_current_eraseIdx found session resolutions
    have loaded : x.session.status = .loaded := session ▸ status
    have outdated : ¬ r.IsCurrent x.session := by
      intro current
      rcases silent with crashed | old | empty
      · exact running place crashed
      · exact old current
      · obtain ⟨trace, -⟩ := tagged.current r (List.mem_of_getElem? found) current
        cases tagged.consistent with
        | loaded _ present => simp [empty, present] at trace
        | empty unloaded => exact unloaded loaded
    have one := h loaded
    rw [if_neg outdated] at fewer
    rw [Activity.located, log]
    rw [Activity.located] at one
    omega
  | @turn pending events started _ change log resolutions =>
    rcases change.tags with ⟨generation, moves, loaded, -, -, rfl, rfl⟩ |
      ⟨step, before, generation, moves, -, rfl, rfl⟩ | ⟨-, -, unloaded, -⟩
    · have same : y.current = x.current := current_eq generation moves (by simpa using resolutions)
      have quiet : y.located = x.located := by simp [Activity.located, log]
      rw [same, quiet]
      exact h (loaded.mp status)
    · have outdated := tagged.outdated (.inl ⟨generation, moves⟩)
      have one : y.current.length = 1 := by
        rw [current_eq_started outdated resolutions (by simp [Resolution.IsCurrent])]
        rfl
      have quiet : y.located = [] := by
        simp [Activity.located, log, sinceMove_moved]
      rw [one, quiet, List.length_nil]
    · exact absurd status unloaded

theorem settled_run (config : SessionConfig) (provider : Provider) (converter : Converter)
    {actions : List Action} (running : ∀ place, .crashResolution place ∉ actions) :
    ((start config provider converter).run actions).Settled := by
  induction actions using List.reverseRecOn with
  | nil =>
    intro loaded
    cases loaded
  | append_singleton actions action ih =>
    have earlier : ∀ place, .crashResolution place ∉ actions := fun place mem =>
      running place (List.mem_append_left _ mem)
    have last : ∀ place, action ≠ .crashResolution place := fun place eq =>
      running place (by simp [eq])
    rw [run_append]
    exact (ih earlier).progress ((reachable_run config provider converter actions).tagged) last
      (progress _ action)

/-- The action `move`, made after `before`, moved the cursor to `step`; the actions
`since` then neither moved it again, nor did they load or unload. -/
structure LastMove (first : Activity) (before : List Action) (move : Action)
    (since : List Action) (step : Nat) : Prop where
  announced : .cursorChanged step ∈ (first.run before).published move
  moved : ((first.run before).perform move).session.moves =
    (first.run before).session.moves + 1
  still : (first.run (before ++ move :: since)).session.moves =
    ((first.run before).perform move).session.moves
  generation : (first.run (before ++ move :: since)).session.generation =
    ((first.run before).perform move).session.generation

theorem LastMove.extend {first : Activity} {before since : List Action} {move action : Action}
    {step : Nat} (h : LastMove first before move since step)
    (moves : ((first.run (before ++ move :: since)).perform action).session.moves =
      (first.run (before ++ move :: since)).session.moves)
    (generation : ((first.run (before ++ move :: since)).perform action).session.generation =
      (first.run (before ++ move :: since)).session.generation) :
    LastMove first before move (since ++ [action]) step where
  announced := h.announced
  moved := h.moved
  still := by
    rw [← h.still, ← moves]
    simp
  generation := by
    rw [← h.generation, ← generation]
    simp

/-- While there is a cursor there is a last move, and what is under way for it
locates with the compilation of its time. -/
def Remembers (first : Activity) (actions : List Action) : Prop :=
  ∀ step, (first.run actions).session.cursor = some step →
    ∃ before move since, actions = before ++ move :: since ∧
      LastMove first before move since step ∧
      ∀ r ∈ (first.run actions).resolutions, r.IsCurrent (first.run actions).session →
        r.artifact = (first.run before).session.breakpoints.artifact

/-- Without a move, a load or an unload the last move stays the last one. -/
theorem Remembers.extend {first : Activity} {actions : List Action} {action : Action}
    (h : Remembers first actions)
    (generation : ((first.run actions).perform action).session.generation =
      (first.run actions).session.generation)
    (moves : ((first.run actions).perform action).session.moves =
      (first.run actions).session.moves)
    (cursor : ((first.run actions).perform action).session.cursor =
      (first.run actions).session.cursor)
    (fewer : ∀ r ∈ ((first.run actions).perform action).resolutions,
      r ∈ (first.run actions).resolutions) :
    Remembers first (actions ++ [action]) := by
  intro step known
  rw [run_concat] at known ⊢
  obtain ⟨before, move, since, rfl, last, artifact⟩ := h step (cursor ▸ known)
  refine ⟨before, move, since ++ [action], by simp, last.extend moves generation, ?_⟩
  intro r mem current
  rw [Resolution.IsCurrent, generation, moves] at current
  exact artifact r (fewer r mem) current

theorem Remembers.perform {first : Activity} {actions : List Action} (h : Remembers first actions)
    (tagged : (first.run actions).Tagged) (action : Action) :
    Remembers first (actions ++ [action]) := by
  cases (first.run actions).progress action with
  | located _ _ _ session _ resolutions =>
    exact h.extend (by rw [session]) (by rw [session]) (by rw [session])
      fun r mem => List.mem_of_mem_eraseIdx (resolutions ▸ mem)
  | ended _ _ session _ resolutions =>
    exact h.extend (by rw [session]) (by rw [session]) (by rw [session])
      fun r mem => List.mem_of_mem_eraseIdx (resolutions ▸ mem)
  | @turn pending events started _ change log resolutions =>
    rcases change.tags with ⟨generation, moves, -, -, navigator, -, rfl⟩ |
      ⟨step, before, generation, moves, cursor, rfl, rfl⟩ | ⟨-, -, unloaded, -⟩
    · refine h.extend generation moves (by rw [Session.cursor, navigator]; rfl) fun r mem => ?_
      simpa [resolutions] using mem
    · intro other known
      rw [run_concat] at known ⊢
      obtain rfl : step = other := Option.some.inj (cursor.symm.trans known)
      have last : LastMove first actions action [] step := {
        announced := by rw [published_eq log]; simp
        moved := moves
        still := by rw [run_concat]
        generation := by rw [run_concat] }
      refine ⟨actions, action, [], rfl, last, ?_⟩
      have outdated := tagged.outdated (.inl ⟨generation, moves⟩)
      intro r mem current
      rw [resolutions] at mem
      rcases List.mem_append.mp mem with mem | mem
      · exact absurd current (outdated r mem)
      · rw [Option.toList_some, List.mem_singleton] at mem
        rw [mem]
    · intro step known
      rw [run_concat] at known
      have consistent := change.consistent tagged.consistent
      exact absurd (consistent.loaded_of_cursor known) unloaded

theorem remembers_run (config : SessionConfig) (provider : Provider) (converter : Converter)
    (actions : List Action) : Remembers (start config provider converter) actions := by
  induction actions using List.reverseRecOn with
  | nil =>
    intro step cursor
    cases cursor
  | append_singleton actions action ih =>
    exact ih.perform ((reachable_run config provider converter actions).tagged) action

/-- A location is the one of the cursor in the loaded trace, found with the
compilation that was active when the last move was made. -/
structure LocatesLastMove (first : Activity) (actions : List Action)
    (location : ResolvedLocation) : Prop where
  status : (first.run actions).session.status = .loaded
  cursor : (first.run actions).session.cursor = some location.step
  move : ∃ before move since loaded, actions = before ++ move :: since ∧
    LastMove first before move since location.step ∧
    (first.run actions).session.loaded = some loaded ∧
    loaded.resolve (first.run actions).session.resolver location.step
      (first.run before).session.breakpoints.artifact = .ok location

theorem locatesLastMove {first : Activity} {actions : List Action} {action : Action}
    {location : ResolvedLocation} (tagged : (first.run actions).Tagged)
    (remembers : Remembers first actions)
    (mem : .locationResolved location ∈ (first.run actions).published action) :
    LocatesLastMove first actions location := by
  cases (first.run actions).progress action with
  | turn _ change log =>
    rw [published_eq log] at mem
    exact absurd mem (change.not_located location)
  | ended _ _ _ log =>
    have none : (first.run actions).published action = [] := published_eq (by simpa using log)
    rw [none] at mem
    cases mem
  | @located place r other found current located _ log =>
    rw [published_eq log, List.mem_singleton, SessionEvent.locationResolved.injEq] at mem
    subst mem
    have known := List.mem_of_getElem? found
    obtain ⟨trace, cursor⟩ := tagged.current r known current
    obtain ⟨loaded, carried, resolved⟩ := r.run_eq_some located
    have step : r.step = location.step := (loaded.step_of_resolve resolved).symm
    rw [step] at cursor resolved
    obtain ⟨before, move, since, eq, last, artifact⟩ := remembers _ cursor
    rw [artifact r known current] at resolved
    exact {
      status := tagged.consistent.loaded_of_cursor cursor
      cursor
      move := ⟨before, move, since, loaded, eq, last, trace ▸ carried, resolved⟩ }

/-- Under every interleaving, a location is published only for the last move of the
loaded trace; and as long as no resolution crashes, that move has either its
resolution under way or its location published, and this once. -/
theorem locations_follow_moves (config : SessionConfig) (provider : Provider)
    (converter : Converter) (actions : List Action) :
    (∀ action location,
      .locationResolved location ∈
        ((start config provider converter).run actions).published action →
      LocatesLastMove (start config provider converter) actions location) ∧
    (((start config provider converter).run actions).session.status = .loaded →
      (∀ place, .crashResolution place ∉ actions) →
      (((start config provider converter).run actions).current.length = 1 ∧
        ((start config provider converter).run actions).located.length = 0) ∨
      (((start config provider converter).run actions).current.length = 0 ∧
        ((start config provider converter).run actions).located.length = 1)) := by
  constructor
  · intro action location mem
    exact locatesLastMove ((reachable_run config provider converter actions).tagged)
      (remembers_run config provider converter actions) mem
  · intro loaded running
    have one := settled_run config provider converter running loaded
    omega

/-- The cursor jumps before step 0 is located. -/
def earlyJump : List Action :=
  .setArtifact (some rowCompilation) :: rowLoad [0, 1, 2] ++ [.jumpTo 1, .finishResolution 0]

def secondRow : ResolvedLocation :=
  ⟨1, .resolved ⟨0, ⟨"src/Token.sol"⟩, ⟨7, 1⟩, ⟨⟨7, 0⟩, ⟨7, 1⟩⟩⟩⟩

theorem earlyJump_located :
    .locationResolved secondRow ∈ (rowStart.run earlyJump).published (.finishResolution 0) ∧
      LocatesLastMove rowStart earlyJump secondRow ∧
      (rowStart.run earlyJump).session.status = .loaded ∧
      (∀ place, .crashResolution place ∉ earlyJump) ∧
      (((rowStart.run earlyJump).current.length = 1 ∧
        (rowStart.run earlyJump).located.length = 0) ∨
      ((rowStart.run earlyJump).current.length = 0 ∧
        (rowStart.run earlyJump).located.length = 1)) := by
  have published : .locationResolved secondRow ∈
      (rowStart.run earlyJump).published (.finishResolution 0) := by decide +kernel
  have loaded : (rowStart.run earlyJump).session.status = .loaded := by decide +kernel
  have running : ∀ place, .crashResolution place ∉ earlyJump := by simp [earlyJump, rowLoad]
  obtain ⟨locates, settled⟩ :=
    locations_follow_moves { parallelIndexing := false } rowProvider rowConverter earlyJump
  exact ⟨published, locates _ _ published, loaded, running, settled loaded running⟩

end Activity

end TraceDebug

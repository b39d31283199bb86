import Mathlib.Computability.Language
import TraceDebug.Proofs.Session.Location
import TraceDebug.Proofs.Session.View

/-!
# The order of events

What a session publishes is told epoch by epoch, one for each loaded trace. The language
of these words is regular in the kinds of events. Between turns the log is a prefix of
such a word, and it never stops inside of what one turn publishes.
-/

namespace TraceDebug

open Computability

namespace EventOrder

def location (step : Nat) : Language SessionEvent :=
  {events | ∃ found : ResolvedLocation, found.step = step ∧ events = [.locationResolved found]}

/-- A move of the cursor, which a breakpoint may announce, and whose step may be located. -/
def move (step : Nat) : Language SessionEvent :=
  (1 + {[.breakpointReached step]}) * {[.cursorChanged step]} * (1 + location step)

def anyMove : Language SessionEvent := {events | ∃ step, events ∈ move step}

/-- What is told of a trace that is loaded, up to now. -/
def opening : Language SessionEvent :=
  {[.statusChanged true]} * {[.cursorChanged 0]} * (1 + location 0) * anyMove∗

def epoch : Language SessionEvent := opening * {[.statusChanged false]} * {[.unloaded]}

/-- A load that is given up tells no more than that nothing is loaded. -/
def words : Language SessionEvent := ({[.unloaded]} + epoch)∗

variable {word told : List SessionEvent}

theorem append_mem_kstar {L : Language SessionEvent} (h : word ∈ L∗) (next : told ∈ L) :
    word ++ told ∈ L∗ :=
  (kstar_mul_le_kstar : L∗ * L ≤ L∗) (Language.append_mem_mul h next)

theorem cancelled_mem_words (h : word ∈ words) : word ++ [.unloaded] ∈ words :=
  append_mem_kstar h (.inl rfl)

theorem unloaded_mem_words (h : word ∈ words * opening) :
    word ++ [.statusChanged false, .unloaded] ∈ words := by
  obtain ⟨before, whole, begun, opened, rfl⟩ := Language.mem_mul.mp h
  have ended : begun ++ [.statusChanged false] ++ [.unloaded] ∈ epoch :=
    Language.append_mem_mul (Language.append_mem_mul opened rfl) rfl
  rw [List.append_assoc] at ended ⊢
  exact append_mem_kstar whole (.inr ended)

theorem opened_mem (h : word ∈ words) (located : told ∈ 1 + location 0) :
    word ++ ([.statusChanged true, .cursorChanged 0] ++ told) ∈ words * opening := by
  have first : [.statusChanged true] ++ [.cursorChanged 0] ++ told ++ [] ∈ opening :=
    Language.append_mem_mul
      (Language.append_mem_mul (Language.append_mem_mul rfl rfl) located)
      (Language.nil_mem_kstar _)
  rw [List.append_nil] at first
  exact Language.append_mem_mul h first

theorem moved_mem (h : word ∈ words * opening) {step : Nat} (moved : told ∈ move step) :
    word ++ told ∈ words * opening := by
  obtain ⟨before, whole, begun, opened, rfl⟩ := Language.mem_mul.mp h
  obtain ⟨first, start, moves, earlier, rfl⟩ := Language.mem_mul.mp opened
  have later : moves ++ told ∈ anyMove∗ := append_mem_kstar earlier ⟨step, moved⟩
  rw [List.append_assoc, List.append_assoc]
  exact Language.append_mem_mul whole (Language.append_mem_mul start later)

theorem announced_mem_move {before : List SessionEvent} {step : Nat}
    (announced : before = [] ∨ before = [.breakpointReached step])
    (located : told ∈ 1 + location step) : before ++ [.cursorChanged step] ++ told ∈ move step :=
  Language.append_mem_mul (Language.append_mem_mul announced rfl) located

/-- The log stops at no event that another one follows in its turn. -/
def Complete (log : List SessionEvent) : Prop :=
  ∀ event, log.getLast? = some event →
    event.kind ≠ .statusChanged ∧ event.kind ≠ .breakpointReached

theorem Complete.append {log : List SessionEvent} (h : Complete log) (more : Complete told) :
    Complete (log ++ told) := by
  intro event last
  rw [List.getLast?_append] at last
  rcases Option.or_eq_some_iff.mp last with later | ⟨-, earlier⟩
  · exact more event later
  · exact h event earlier

theorem complete_of_tells {s s' : Session} {started : Option Resolution}
    (tells : s.Tells s' told started) : Complete told := by
  cases tells <;> simp [Complete, SessionEvent.kind]

end EventOrder

namespace Activity

open EventOrder

/-- After a turn the current resolutions are those of before, or the one it started. -/
theorem Tagged.current_turn {x y : Activity} (h : x.Tagged) {pending : Option IndexResult}
    {events : List SessionEvent} {started : Option Resolution}
    (change : x.session.Change pending y.session events started)
    (resolutions : y.resolutions = x.resolutions ++ started.toList) :
    y.current = started.toList ∨ started = none ∧ y.current = x.current := by
  rcases change.tags with ⟨generation, moves, -, -, -, -, rfl⟩ |
    ⟨step, before, generation, moves, -, -, rfl⟩ | ⟨generation, -, -, rfl⟩
  · exact .inr ⟨rfl, current_eq generation moves (by simpa using resolutions)⟩
  · exact .inl (current_eq_started (h.outdated (.inl ⟨generation, moves⟩)) resolutions
      (by simp [Resolution.IsCurrent]))
  · exact .inl (current_eq_started (h.outdated (.inr generation)) resolutions (by simp))

/-- Just while a trace is loaded, its epoch is open; and then the resolution of the last
move, if it is still under way, may be told next. -/
structure Ordered (x : Activity) : Prop where
  whole : x.session.status ≠ .loaded → x.log ∈ words
  opened : x.session.status = .loaded → x.log ∈ words * opening
  locatable : x.session.status = .loaded → ∀ r ∈ x.current, ∀ told ∈ location r.step,
    x.log ++ told ∈ words * opening
  single : x.current.length ≤ 1
  complete : Complete x.log

theorem ordered_start (config : SessionConfig) (provider : Provider) (converter : Converter) :
    (start config provider converter).Ordered where
  whole _ := Language.nil_mem_kstar _
  opened loaded := by cases loaded
  locatable loaded := by cases loaded
  single := Nat.zero_le _
  complete := by simp [Complete, start]

theorem ordered_of_started {x : Activity} {r : Resolution} (loaded : x.session.status = .loaded)
    (current : x.current = [r])
    (told : ∀ told ∈ 1 + location r.step, x.log ++ told ∈ words * opening)
    (complete : Complete x.log) : x.Ordered where
  whole empty := absurd loaded empty
  opened _ := by simpa using told [] (.inl rfl)
  locatable _ other mem later located := by
    rw [current, List.mem_singleton] at mem
    exact told later (.inr (mem ▸ located))
  single := by rw [current, List.length_singleton]
  complete := complete

theorem ordered_of_empty {x : Activity} (empty : x.session.status ≠ .loaded) (log : x.log ∈ words)
    (single : x.current.length ≤ 1) (complete : Complete x.log) : x.Ordered where
  whole _ := log
  opened loaded := absurd loaded empty
  locatable loaded := absurd loaded empty
  single := single
  complete := complete

theorem Ordered.turn {x y : Activity} (h : x.Ordered) {events : List SessionEvent}
    {started : Option Resolution} (tells : x.session.Tells y.session events started)
    (log : y.log = x.log ++ events)
    (current : y.current = started.toList ∨ started = none ∧ y.current = x.current) :
    y.Ordered := by
  have single : y.current.length ≤ 1 := by
    rcases current with same | ⟨-, same⟩
    · rw [same]
      exact Option.length_toList_le
    · rw [same]
      exact h.single
  have complete : Complete y.log := log ▸ h.complete.append (complete_of_tells tells)
  cases tells with
  | nothing active =>
    rw [List.append_nil] at log
    refine ⟨?_, ?_, ?_, single, complete⟩
    · rw [log, Ne, active]
      exact h.whole
    · rw [log, active]
      exact h.opened
    · rw [log, active]
      intro loaded r mem
      rcases current with none | ⟨-, same⟩
      · rw [none] at mem
        cases mem
      · exact h.locatable loaded r (same ▸ mem)
  | @move step before r loaded still _ located announced =>
    have started : y.current = [r] := by simpa using current
    refine ordered_of_started still started ?_ complete
    intro told mem
    rw [log, List.append_assoc]
    exact moved_mem (h.opened loaded) (announced_mem_move announced (located ▸ mem))
  | @load r empty loaded _ located =>
    have started : y.current = [r] := by simpa using current
    refine ordered_of_started loaded started ?_ complete
    intro told mem
    rw [log, List.append_assoc]
    exact opened_mem (h.whole empty) (located ▸ mem)
  | unload loaded gone =>
    exact ordered_of_empty gone (log ▸ unloaded_mem_words (h.opened loaded)) single complete
  | cancel empty still =>
    exact ordered_of_empty still (log ▸ cancelled_mem_words (h.whole empty)) single complete

theorem Ordered.progress {x y : Activity} {action : Action} (h : x.Ordered) (tagged : x.Tagged)
    (progress : Progress x action y) : y.Ordered := by
  cases progress with
  | turn _ change log resolutions =>
    exact h.turn (change.tells tagged.consistent) log (tagged.current_turn change resolutions)
  | @located place r found known current located session log resolutions =>
    have mem := List.mem_of_getElem? known
    have loaded := tagged.consistent.loaded_of_cursor (tagged.current r mem current).2
    have last : r ∈ x.current := List.mem_filter.mpr ⟨mem, decide_eq_true current⟩
    obtain ⟨trace, -, resolved⟩ := r.run_eq_some located
    have told : [.locationResolved found] ∈ location r.step :=
      ⟨found, trace.step_of_resolve resolved, rfl⟩
    -- The located resolution was the only one of the last move.
    have none : y.current = [] := by
      have fewer := length_current_eraseIdx known session resolutions
      rw [if_pos current] at fewer
      exact List.length_eq_zero_iff.mp (by have := h.single; omega)
    exact {
      whole := fun empty => absurd (session ▸ loaded) empty
      opened := fun _ => log ▸ h.locatable loaded r last _ told
      locatable := by
        rw [none]
        exact fun _ _ mem => nomatch mem
      single := by simp [none]
      complete := log ▸ h.complete.append (by simp [Complete, SessionEvent.kind]) }
  | ended _ _ session log resolutions =>
    have fewer : y.current.Sublist x.current := by
      rw [Activity.current, Activity.current, session, resolutions]
      exact (List.eraseIdx_sublist ..).filter _
    exact {
      whole := by
        rw [session, log]
        exact h.whole
      opened := by
        rw [session, log]
        exact h.opened
      locatable := by
        rw [session, log]
        exact fun loaded r mem => h.locatable loaded r (fewer.mem mem)
      single := Nat.le_trans fewer.length_le h.single
      complete := log ▸ h.complete }

theorem Reachable.ordered {x : Activity} (h : x.Reachable) : x.Ordered :=
  h.invariant ordered_start fun y action reachable ordered =>
    ordered.progress reachable.tagged (y.progress action)

/-- Under every interleaving, the log is a prefix of a word of the language: it lies
inside of an epoch just while a trace is loaded. It stops only where a turn ends, and
so neither behind a change of the status nor behind a breakpoint that was reached. -/
theorem log_tells_epochs (config : SessionConfig) (provider : Provider) (converter : Converter)
    (actions : List Action) :
    (∃ word ∈ words, ((start config provider converter).run actions).log <+: word) ∧
    ((start config provider converter).run actions).log ∈
      (if ((start config provider converter).run actions).session.status = .loaded
        then words * opening else words) ∧
    (∀ active, ((start config provider converter).run actions).log.getLast? ≠
      some (.statusChanged active)) ∧
    ∀ step, ((start config provider converter).run actions).log.getLast? ≠
      some (.breakpointReached step) := by
  have ordered := (reachable_run config provider converter actions).ordered
  refine ⟨?_, ?_, fun active last => (ordered.complete _ last).1 rfl,
    fun step last => (ordered.complete _ last).2 rfl⟩
  · by_cases loaded : ((start config provider converter).run actions).session.status = .loaded
    · exact ⟨_, unloaded_mem_words (ordered.opened loaded), List.prefix_append _ _⟩
    · exact ⟨_, ordered.whole loaded, List.prefix_rfl⟩
  · split
    · next loaded => exact ordered.opened loaded
    · next empty => exact ordered.whole empty

end Activity

end TraceDebug

import Mathlib.Data.List.Induction
import TraceDebug.Proofs.Session.Hits

/-!
# Continuations across an unload

A continuation that is off indexing carries the revision of its request, and no
generation. An unload outdates its request, and the result is dropped; but then the
continuation asks again, for whatever trace is loaded by then, and goes on in that one.
-/

namespace TraceDebug

namespace Session

/-- A turn keeps the loaded trace, drops it, or finds none. -/
theorem Change.loaded_cases {s s' : Session} {pending : Option IndexResult}
    {events : List SessionEvent} {started : Option Resolution}
    (change : s.Change pending s' events started) (consistent : s.Consistent) :
    s'.loaded = s.loaded ∨ s'.loaded = none ∨ s.loaded = none := by
  cases change with
  | unloaded => exact .inr (.inl rfl)
  | replaced => exact .inr (.inl rfl)
  | installed loading => exact .inr (.inr (consistent.empty_of_ne (by simp [loading])).1)
  | _ => exact .inl rfl

/-- With all breakpoints indexed, the step is the nearest hit beyond the cursor. -/
def StopsAt (s : Session) (direction : Direction) (step : Nat) : Prop :=
  ∃ loaded artifact current, s.loaded = some loaded ∧ s.breakpoints.artifact = some artifact ∧
    s.cursor = some current ∧ s.breakpoints.unindexed = [] ∧
    direction.IsNearest current
      {hit | ∃ b ∈ s.breakpoints.breakpoints,
        hit ∈ loaded.hitSteps s.breakpoints.resolver artifact b} step

theorem StopsAt.lt_length {s : Session} {direction : Direction} {step : Nat} {l : LoadedTrace}
    (h : s.StopsAt direction step) (trace : s.loaded = some l) : step < l.length := by
  obtain ⟨loaded, artifact, current, trace', -, -, -, nearest⟩ := h
  cases trace.symm.trans trace'
  obtain ⟨b, -, hit⟩ := nearest.mem
  exact (LoadedTrace.mem_hitSteps.mp hit).1

/-- In a consistent session a stop is a step of the trace, to which there is a hit. -/
theorem stopsAt_iff {s : Session} {n : Navigator} {l : LoadedTrace} (trace : s.loaded = some l)
    (navigator : s.navigator = some n) (sound : s.breakpoints.Sound s.loaded)
    (direction : Direction) (step : Nat) :
    s.StopsAt direction step ↔ s.breakpoints.indexRequest l = none ∧
      s.breakpoints.nextHit n.cursor direction = some step := by
  rw [trace] at sound
  rw [sound.nextHit_iff]
  constructor
  · rintro ⟨loaded, artifact, current, trace', active, cursor, complete, nearest⟩
    cases trace.symm.trans trace'
    obtain rfl : n.cursor = current := by simpa [Session.cursor, navigator] using cursor
    exact ⟨artifact, active, complete, nearest⟩
  · rintro ⟨artifact, active, complete, nearest⟩
    exact ⟨l, artifact, n.cursor, trace, active, by simp [Session.cursor, navigator], complete,
      nearest⟩

/-- A pass moves to the stop and says so, or it changes nothing that can be seen. -/
theorem continuePass_stops {s : Session} (consistent : s.Consistent) (direction : Direction)
    (pending : Option IndexResult) (sound : (s.breakpoints.takeUp pending).Sound s.loaded) :
    (∃ step,
      StopsAt { s with breakpoints := s.breakpoints.takeUp pending } direction step ∧
      (s.continuePass direction pending).events = [.breakpointReached step, .cursorChanged step] ∧
      (s.continuePass direction pending).session.cursor = some step) ∨
    (∀ step, ¬ StopsAt { s with breakpoints := s.breakpoints.takeUp pending } direction step) ∧
      (s.continuePass direction pending).events = [] ∧
      (s.continuePass direction pending).session.cursor = s.cursor := by
  rcases continuePass_cases (s := s) direction pending rfl with
    ⟨empty, same⟩ | ⟨l, trace, asked⟩
  · rw [same]
    refine .inr ⟨?_, rfl, rfl⟩
    rintro step ⟨loaded, artifact, current, trace, -⟩
    cases empty.symm.trans trace
  · cases consistent with
    | empty _ empty => cases empty.symm.trans trace
    | @loaded l' n status trace' navigator length inside =>
      cases trace.symm.trans trace'
      have stops := stopsAt_iff (s := { s with breakpoints := s.breakpoints.takeUp pending })
        trace navigator sound direction
      rcases asked with ⟨request, asked, turn⟩ | ⟨quiet, turn⟩
      · rw [turn]
        refine .inr ⟨?_, rfl, rfl⟩
        intro step stop
        cases asked.symm.trans ((stops step).mp stop).1
      · rcases continueNow_cases (s := { s with breakpoints := s.breakpoints.takeUp pending })
          direction with ⟨result, stayed, -, outside⟩ | ⟨m, hit, eq, found, -, moved⟩
        · rw [turn, stayed]
          refine .inr ⟨?_, rfl, rfl⟩
          intro step stop
          have bound := outside n step navigator ((stops step).mp stop).2
          have below := stop.lt_length trace
          omega
        · cases navigator.symm.trans eq
          rw [turn, moved]
          exact .inl ⟨hit, (stops hit).mpr ⟨quiet, found⟩, rfl, rfl⟩

end Session

/-- What drops a loaded trace. -/
inductive Action.Unloads : Action → Prop where
  | unload : Unloads .unload
  | beginLoad (designation : TransactionRef) : Unloads (.beginLoad designation)

namespace Activity

variable {x : Activity}

theorem loaded_unloads {action : Action} (unloads : action.Unloads)
    (consistent : x.session.Consistent) : (x.perform action).session.loaded = none := by
  cases unloads with
  | unload => exact Session.loaded_unload consistent
  | beginLoad designation => exact Session.loaded_beginLoad consistent designation

theorem calls_unloads {action : Action} (unloads : action.Unloads) :
    (x.perform action).calls = x.calls := by
  cases unloads with
  | unload => rfl
  | beginLoad => rfl

theorem revision_le_perform (x : Activity) (action : Action) :
    x.session.breakpoints.revision ≤ (x.perform action).session.breakpoints.revision := by
  cases x.progress action with
  | turn _ change =>
    rcases change.engine with ⟨-, ⟨entries, artifact, forgot⟩ | ⟨-, same | taken⟩⟩
    · rw [forgot]
      exact Nat.le_succ _
    · rw [same]
    · rw [taken, BreakpointEngine.revision_takeUp]
  | located _ _ _ session => rw [session]
  | ended _ _ session => rw [session]

theorem revision_le_run (x : Activity) (actions : List Action) :
    x.session.breakpoints.revision ≤ (x.run actions).session.breakpoints.revision :=
  run_invariant (Nat.le_refl _) (fun y action h => Nat.le_trans h (y.revision_le_perform action))
    actions

/-- A trace that came into a session that had none was installed by some action. -/
theorem exists_install (reachable : x.Reachable) (empty : x.session.loaded = none)
    {actions : List Action} {loaded : LoadedTrace}
    (trace : (x.run actions).session.loaded = some loaded) :
    ∃ first install rest, actions = first ++ install :: rest ∧
      (x.run first).session.loaded = none ∧
      ((x.run first).perform install).session.loaded = some loaded := by
  induction actions using List.reverseRecOn with
  | nil => cases empty.symm.trans trace
  | append_singleton actions action ih =>
    rw [run_concat] at trace
    have kept : ((x.run actions).perform action).session.loaded =
        (x.run actions).session.loaded ∨ (x.run actions).session.loaded = none := by
      cases (x.run actions).progress action with
      | turn _ change =>
        rcases change.loaded_cases (reachable.run actions).consistent with same | gone | none
        · exact .inl same
        · cases gone.symm.trans trace
        · exact .inr none
      | located _ _ _ session => exact .inl (by rw [session])
      | ended _ _ session => exact .inl (by rw [session])
    rcases kept with same | none
    · obtain ⟨first, install, rest, rfl, before, after⟩ := ih (same ▸ trace)
      exact ⟨first, install, rest ++ [action], by simp, before, after⟩
    · exact ⟨actions, action, [], rfl, none, trace⟩

/-- Where a continuation goes when it goes on now: it needs a trace that is loaded
now, and an index of now, its own or that of another continuation. -/
def GoesTo (x : Activity) (call : Call) (step : Nat) : Prop :=
  ∃ loaded artifact current, x.session.loaded = some loaded ∧
    x.session.breakpoints.artifact = some artifact ∧ x.session.cursor = some current ∧
    (∃ result, call.request.run = .ok result) ∧
    (call.request.revision = x.session.breakpoints.revision ∨
      x.session.breakpoints.unindexed = []) ∧
    call.direction.IsNearest current
      {hit | ∃ b ∈ x.session.breakpoints.breakpoints,
        hit ∈ loaded.hitSteps x.session.resolver artifact b} step

theorem GoesTo.unique {call : Call} {step other : Nat} (h : x.GoesTo call step)
    (h' : x.GoesTo call other) : step = other := by
  obtain ⟨loaded, artifact, current, trace, active, cursor, -, -, nearest⟩ := h
  obtain ⟨loaded', artifact', current', trace', active', cursor', -, -, nearest'⟩ := h'
  cases trace.symm.trans trace'
  cases active.symm.trans active'
  cases cursor.symm.trans cursor'
  exact nearest.unique nearest'

theorem stopsAt_iff_goesTo (indexed : x.Indexed) {call : Call} (mem : some call ∈ x.calls)
    {result : IndexResult} (ran : call.request.run = .ok result) (step : Nat) :
    Session.StopsAt
        { x.session with breakpoints := x.session.breakpoints.takeUp (some result) }
        call.direction step ↔ x.GoesTo call step := by
  have complete := BreakpointEngine.unindexed_takeUp_iff (indexed.calls call mem) ran
  have ran' : ∃ result, call.request.run = .ok result := ⟨result, ran⟩
  simp only [Session.StopsAt, GoesTo, BreakpointEngine.artifact_takeUp,
    BreakpointEngine.breakpoints_takeUp, BreakpointEngine.resolver_takeUp, complete,
    indexed.resolver, ran', true_and]
  rfl

theorem resumeContinue_goes (reachable : x.Reachable) {number : Nat} {call : Call}
    (waiting : x.calls[number]? = some (some call)) :
    (∃ step, x.GoesTo call step ∧
      x.published (.resumeContinue number) = [.breakpointReached step, .cursorChanged step] ∧
      (x.perform (.resumeContinue number)).session.cursor = some step) ∨
    (∀ step, ¬ x.GoesTo call step) ∧ x.published (.resumeContinue number) = [] ∧
      (x.perform (.resumeContinue number)).session.cursor = x.session.cursor := by
  have mem := List.mem_of_getElem? waiting
  have indexed := reachable.indexed
  cases ran : call.request.run with
  | error fault =>
    refine .inr ⟨?_, ?_, ?_⟩
    · rintro step ⟨_, _, _, -, -, -, ⟨result, ok⟩, -⟩
      cases ran.symm.trans ok
    · exact published_eq (by simp [perform, resumeContinue, waiting, ran])
    · simp [perform, resumeContinue, waiting, ran]
  | ok result =>
    have session : (x.perform (.resumeContinue number)).session =
        (x.session.continuePass call.direction (some result)).session := by
      simp [perform, resumeContinue, waiting, ran, take]
    have published : x.published (.resumeContinue number) =
        (x.session.continuePass call.direction (some result)).events :=
      published_eq (by simp [perform, resumeContinue, waiting, ran, take])
    have sound := indexed.sound.takeUp (indexed.calls call mem) ran
    rw [session, published]
    simp only [← stopsAt_iff_goesTo indexed mem ran]
    exact Session.continuePass_stops reachable.consistent call.direction (some result) sound

/-- The next pass of a continuation moves the cursor exactly if it can go somewhere, and
says so; otherwise neither the cursor nor the log changes. -/
structure PassGoes (x : Activity) (number : Nat) (call : Call) : Prop where
  moves : ∀ step, x.GoesTo call step ↔
    x.published (.resumeContinue number) = [.breakpointReached step, .cursorChanged step] ∧
      (x.perform (.resumeContinue number)).session.cursor = some step
  stays : (∀ step, ¬ x.GoesTo call step) →
    x.published (.resumeContinue number) = [] ∧
      (x.perform (.resumeContinue number)).session.cursor = x.session.cursor

theorem Reachable.passGoes (reachable : x.Reachable) {number : Nat} {call : Call}
    (waiting : x.calls[number]? = some (some call)) : x.PassGoes number call := by
  rcases resumeContinue_goes reachable waiting with
    ⟨goal, goes, events, cursor⟩ | ⟨nowhere, quiet, still⟩
  · refine ⟨fun step => ⟨fun can => ?_, ?_⟩, fun none => absurd goes (none goal)⟩
    · obtain rfl := can.unique goes
      exact ⟨events, cursor⟩
    · rintro ⟨published, -⟩
      obtain rfl : goal = step := by simpa [events] using published
      exact goes
  · refine ⟨fun step => ⟨fun can => absurd can (nowhere step), ?_⟩, fun _ => ⟨quiet, still⟩⟩
    rintro ⟨published, -⟩
    cases quiet.symm.trans published

/-- A continuation that is off indexing while the trace is unloaded. Its result is
dropped, since the revision has gone on. But it goes on by itself as soon as a trace
that was installed since is loaded and indexed: exactly then it moves the cursor. -/
theorem unloaded_continuation {x : Activity} (reachable : x.Reachable) {action : Action}
    (unloads : action.Unloads) {number : Nat} {call : Call}
    (made : x.calls[number]? = some (some call)) {since : List Action} {waiting : Call}
    (still : ((x.perform action).run since).calls[number]? = some (some waiting)) :
    call.request.revision < ((x.perform action).run since).session.breakpoints.revision ∧
      (∀ loaded, ((x.perform action).run since).session.loaded = some loaded →
        ∃ first install rest, since = first ++ install :: rest ∧
          ((x.perform action).run first).session.loaded = none ∧
          (((x.perform action).run first).perform install).session.loaded = some loaded) ∧
      ((x.perform action).run since).PassGoes number waiting := by
  have unloaded := loaded_unloads unloads reachable.consistent
  have after : (x.perform action).Reachable := reachable.run [action]
  refine ⟨?_, fun loaded trace => exists_install after unloaded trace, ?_⟩
  · have mem : some call ∈ (x.perform action).calls := by
      rw [calls_unloads unloads]
      exact List.mem_of_getElem? made
    have matching := after.indexed.calls call mem
    have outdated : call.request.revision ≠ (x.perform action).session.breakpoints.revision := by
      intro same
      cases unloaded.symm.trans (matching.current same).2.2.1
    have older := matching.revision
    have later := (x.perform action).revision_le_run since
    omega
  · exact (after.run since).passGoes still

/-- A continuation in a trace of one step, which has no hit. -/
def beforeUnload : List Action :=
  .setArtifact (some rowCompilation) :: rowLoad [0] ++
    [.addBreakpoint (rowBreakpoint 7), .beginContinue .forward]

/-- Another trace is loaded, and the outdated index run ends. -/
def afterUnload : List Action := rowLoad [0, 1] ++ [.resumeContinue 0]

theorem unloaded_continuation_moves : ∃ call waiting,
    (rowStart.run beforeUnload).calls[0]? = some (some call) ∧
      (((rowStart.run beforeUnload).perform .unload).run afterUnload).calls[0]? =
        some (some waiting) ∧
      call.request.revision < (((rowStart.run beforeUnload).perform .unload).run
        afterUnload).session.breakpoints.revision ∧
      (((rowStart.run beforeUnload).perform .unload).run afterUnload).published
        (.resumeContinue 0) = [.breakpointReached 1, .cursorChanged 1] ∧
      (((rowStart.run beforeUnload).perform .unload).run afterUnload).GoesTo waiting 1 := by
  have reachable : (rowStart.run beforeUnload).Reachable := reachable_run _ _ _ _
  have making : ((rowStart.run beforeUnload).calls[0]?.join).isSome := by decide +kernel
  have waits : ((((rowStart.run beforeUnload).perform .unload).run
      afterUnload).calls[0]?.join).isSome := by decide +kernel
  have published : (((rowStart.run beforeUnload).perform .unload).run afterUnload).published
      (.resumeContinue 0) = [.breakpointReached 1, .cursorChanged 1] := by decide +kernel
  have cursor : ((((rowStart.run beforeUnload).perform .unload).run afterUnload).perform
      (.resumeContinue 0)).session.cursor = some 1 := by decide +kernel
  obtain ⟨call, made⟩ := Option.isSome_iff_exists.mp making
  obtain ⟨waiting, still⟩ := Option.isSome_iff_exists.mp waits
  have made := Option.join_eq_some_iff.mp made
  have still := Option.join_eq_some_iff.mp still
  obtain ⟨outdated, -, goes⟩ := unloaded_continuation reachable .unload made still
  exact ⟨call, waiting, made, still, outdated, published, (goes.moves 1).mpr ⟨published, cursor⟩⟩

end Activity

end TraceDebug

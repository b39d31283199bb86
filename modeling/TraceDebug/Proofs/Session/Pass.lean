import TraceDebug.Proofs.Session.Hits

/-!
# Passes of a continuation

A continuation goes on in passes, and between two of them anything can happen. What it
gives in the end is decided in its last pass alone, by the breakpoints, the compilation,
the trace and the cursor of that pass; and if the first three stay as they are between
two passes, the second one is the last.
-/

namespace TraceDebug

namespace Session

/-- The steps of the loaded trace that resolve onto a breakpoint under the active
compilation. -/
def hits (s : Session) : Set Nat :=
  {step | ∃ loaded artifact, s.loaded = some loaded ∧ s.breakpoints.artifact = some artifact ∧
    ∃ b ∈ s.breakpoints.breakpoints, step < loaded.length ∧ ∃ location,
      loaded.resolve s.resolver step (some artifact) = .ok ⟨step, .resolved location⟩ ∧
      location.path.endsWith b.file = true ∧ location.span.start.line = b.row}

/-- The step is the nearest hit strictly beyond the cursor. -/
def NearestHit (s : Session) (direction : Direction) (step : Nat) : Prop :=
  ∃ current, s.cursor = some current ∧ direction.IsNearest current s.hits step

/-- There is a hit strictly beyond the cursor. -/
def HitBeyond (s : Session) (direction : Direction) : Prop :=
  ∃ current, s.cursor = some current ∧ ∃ hit ∈ s.hits, direction.Beyond current hit

variable {s : Session} {direction : Direction} {pending : Option IndexResult}

theorem exists_nearestHit_iff : (∃ step, s.NearestHit direction step) ↔ s.HitBeyond direction := by
  constructor
  · rintro ⟨step, current, cursor, nearest⟩
    exact ⟨current, cursor, step, nearest.mem, nearest.beyond⟩
  · rintro ⟨current, cursor, hit, mem, beyond⟩
    obtain ⟨step, nearest⟩ := Direction.exists_isNearest beyond mem
    exact ⟨step, current, cursor, nearest⟩

theorem hits_eq {l : LoadedTrace} {c : Compilation} (trace : s.loaded = some l)
    (artifact : s.breakpoints.artifact = some c) :
    s.hits = {hit | ∃ b ∈ s.breakpoints.breakpoints, hit ∈ l.hitSteps s.resolver c b} := by
  ext step
  constructor
  · rintro ⟨l', c', trace', artifact', b, mem, hit⟩
    cases trace.symm.trans trace'
    cases artifact.symm.trans artifact'
    exact ⟨b, mem, LoadedTrace.mem_hitSteps.mpr hit⟩
  · rintro ⟨b, mem, hit⟩
    exact ⟨l, c, trace, artifact, b, mem, LoadedTrace.mem_hitSteps.mp hit⟩

theorem NearestHit.unique {step other : Nat} (h : s.NearestHit direction step)
    (h' : s.NearestHit direction other) : step = other := by
  obtain ⟨current, cursor, nearest⟩ := h
  obtain ⟨current', cursor', nearest'⟩ := h'
  cases cursor.symm.trans cursor'
  exact nearest.unique nearest'

theorem NearestHit.loaded_ne_none {step : Nat} (h : s.NearestHit direction step) :
    s.loaded ≠ none := by
  obtain ⟨current, -, nearest⟩ := h
  obtain ⟨l, c, trace, -⟩ := nearest.mem
  simp [trace]

theorem NearestHit.lt_length {l : LoadedTrace} {step : Nat} (h : s.NearestHit direction step)
    (trace : s.loaded = some l) : step < l.length := by
  obtain ⟨current, -, nearest⟩ := h
  obtain ⟨l', c, trace', -, b, -, inside, -⟩ := nearest.mem
  cases trace.symm.trans trace'
  exact inside

/-- With nothing left to index, the engine finds the nearest hit of the session. -/
theorem nextHit_iff_nearestHit {l : LoadedTrace} {n : Navigator} (trace : s.loaded = some l)
    (navigator : s.navigator = some n) (resolver : s.breakpoints.resolver = s.resolver)
    (sound : (s.breakpoints.takeUp pending).Sound s.loaded)
    (quiet : (s.breakpoints.takeUp pending).indexRequest l = none) (direction : Direction)
    (step : Nat) :
    (s.breakpoints.takeUp pending).nextHit n.cursor direction = some step ↔
      s.NearestHit direction step := by
  rw [trace] at sound
  have search := sound.nextHit_iff n.cursor direction step
  rw [BreakpointEngine.artifact_takeUp, BreakpointEngine.breakpoints_takeUp,
    BreakpointEngine.resolver_takeUp, resolver] at search
  have cursor : s.cursor = some n.cursor := by simp [Session.cursor, navigator]
  constructor
  · intro found
    obtain ⟨c, artifact, -, nearest⟩ := search.mp ⟨quiet, found⟩
    exact ⟨n.cursor, cursor, hits_eq trace artifact ▸ nearest⟩
  · rintro ⟨current, cursor', nearest⟩
    cases cursor.symm.trans cursor'
    obtain ⟨_, c, -, artifact, -⟩ := nearest.mem
    have complete : (s.breakpoints.takeUp pending).unindexed = [] := by
      rcases BreakpointEngine.indexRequest_eq_none_iff.mp quiet with none | complete
      · rw [BreakpointEngine.artifact_takeUp, artifact] at none
        cases none
      · exact complete
    exact (search.mpr ⟨c, artifact, complete, hits_eq trace artifact ▸ nearest⟩).2

/-- How the last pass of a continuation ends. -/
inductive Ends (s : Session) (direction : Direction) :
    Turn (Except NavigationError Continuation) → Prop where
  | notLoaded (empty : s.loaded = none) :
      Ends s direction { session := s, result := .error .notLoaded }
  | stayed {breakpoints : BreakpointEngine} (trace : s.loaded ≠ none)
      (nowhere : ∀ step, ¬ s.NearestHit direction step) :
      Ends s direction { session := { s with breakpoints }, result := .ok (.done none) }
  | reached {n : Navigator} {breakpoints : BreakpointEngine} {step : Nat}
      (trace : s.loaded ≠ none) (nearest : s.NearestHit direction step) :
      Ends s direction
        ({ s with breakpoints, navigator := some { n with cursor := step } }.moved step
          [.breakpointReached step] fun r => .ok (.done (some r)))

/-- A pass that does not ask for an index run is the last, and ends so. -/
theorem ends_continuePass (consistent : s.Consistent)
    (resolver : s.breakpoints.resolver = s.resolver)
    (sound : (s.breakpoints.takeUp pending).Sound s.loaded)
    (last : ∀ request, (s.continuePass direction pending).result ≠ .ok (.index request)) :
    s.Ends direction (s.continuePass direction pending) := by
  rcases continuePass_cases (s := s) direction pending rfl with
    ⟨empty, same⟩ | ⟨l, trace, ⟨request, -, asked⟩ | ⟨quiet, continued⟩⟩
  · rw [same]
    exact .notLoaded empty
  · exact absurd (by rw [asked]) (last request)
  · have present : s.loaded ≠ none := by simp [trace]
    cases consistent with
    | empty _ empty => exact absurd empty present
    | @loaded l' n status trace' navigator length inside =>
      cases trace.symm.trans trace'
      have search := nextHit_iff_nearestHit trace navigator resolver sound quiet direction
      rw [continued, continueNow]
      cases next : (s.breakpoints.takeUp pending).nextHit n.cursor direction with
      | none =>
        have nowhere : ∀ step, ¬ s.NearestHit direction step := by
          intro step nearest
          cases next.symm.trans ((search step).mpr nearest)
        simpa only [navigator, next] using Ends.stayed present nowhere
      | some step =>
        have nearest := (search step).mp next
        have within : ¬ n.length ≤ step := by
          rw [length]
          exact Nat.not_le.mpr (nearest.lt_length trace)
        simpa only [navigator, next, Navigator.jumpTo, if_neg within] using
          Ends.reached present nearest

variable {turn : Turn (Except NavigationError Continuation)}

theorem Ends.notLoaded_iff (ends : s.Ends direction turn) :
    turn.result = .error .notLoaded ↔ s.loaded = none := by
  cases ends with
  | notLoaded empty => simp [empty]
  | stayed trace => simp [trace]
  | reached trace => simp [trace, moved]

theorem Ends.inside (ends : s.Ends direction turn) (index length : Nat) :
    turn.result ≠ .error (.outOfRange index length) := by
  cases ends <;> simp [moved]

theorem Ends.stays_iff (ends : s.Ends direction turn) :
    turn.result = .ok (.done none) ↔ s.loaded ≠ none ∧ ¬ s.HitBeyond direction := by
  rw [← exists_nearestHit_iff]
  cases ends with
  | notLoaded empty => simp [empty]
  | stayed trace nowhere => simp [trace, nowhere]
  | @reached _ _ step _ nearest =>
    have somewhere : ∃ step, s.NearestHit direction step := ⟨step, nearest⟩
    simp [somewhere, moved]

theorem Ends.stays (ends : s.Ends direction turn) (stays : turn.result = .ok (.done none)) :
    turn.session.cursor = s.cursor ∧ turn.events = [] := by
  cases ends with
  | notLoaded => cases stays
  | stayed => exact ⟨rfl, rfl⟩
  | reached => cases stays

theorem Ends.reaches (ends : s.Ends direction turn) {handle : Resolution}
    (reaches : turn.result = .ok (.done (some handle))) :
    s.NearestHit direction handle.step ∧ turn.session.cursor = some handle.step ∧
      turn.events = [.breakpointReached handle.step, .cursorChanged handle.step] := by
  cases ends with
  | notLoaded => cases reaches
  | stayed => cases reaches
  | reached _ nearest =>
    cases reaches
    exact ⟨nearest, rfl, rfl⟩

theorem Ends.exists_handle (ends : s.Ends direction turn) {step : Nat}
    (nearest : s.NearestHit direction step) :
    ∃ handle, turn.result = .ok (.done (some handle)) ∧ handle.step = step := by
  cases ends with
  | notLoaded empty => exact absurd empty nearest.loaded_ne_none
  | stayed _ nowhere => exact absurd nearest (nowhere step)
  | reached _ reached =>
    obtain rfl := reached.unique nearest
    exact ⟨_, rfl, rfl⟩

/-- With all breakpoints indexed no index run is asked for. -/
theorem continuePass_last (complete : (s.breakpoints.takeUp pending).unindexed = [])
    (request : IndexRequest) :
    (s.continuePass direction pending).result ≠ .ok (.index request) := by
  rcases continuePass_cases (s := s) direction pending rfl with
    ⟨-, same⟩ | ⟨l, -, ⟨asked, some, -⟩ | ⟨-, continued⟩⟩
  · rw [same]
    simp
  · obtain ⟨c, -, left, -⟩ := BreakpointEngine.indexRequest_eq_some some
    exact absurd complete left
  · rw [continued]
    rcases continueNow_cases (s := { s with breakpoints := s.breakpoints.takeUp pending })
      direction with ⟨result, stayed, last, -⟩ | ⟨n, hit, -, -, -, moved⟩
    · rw [stayed]
      exact last request
    · rw [moved]
      simp [Session.moved]

/-- Unloading outdates index runs only if it changes the loaded trace, and so does loading. -/
theorem revision_unload (consistent : s.Consistent)
    (kept : s.unload.session.loaded = s.loaded) :
    s.unload.session.breakpoints.revision = s.breakpoints.revision := by
  cases consistent with
  | loaded status trace =>
    rw [trace, unload, status] at kept
    cases kept
  | empty status =>
    unfold unload
    split
    · next loaded => exact absurd loaded status
    · rfl
    · rfl
    · rfl

theorem revision_beginLoad (consistent : s.Consistent) (designation : TransactionRef)
    (kept : (s.beginLoad designation).session.loaded = s.loaded) :
    (s.beginLoad designation).session.breakpoints.revision = s.breakpoints.revision := by
  unfold beginLoad at kept ⊢
  split at kept
  · next loading => rw [if_pos loading]
  · next free =>
    rw [if_neg free]
    exact revision_unload consistent kept

theorem revision_commitLoad (consistent : s.Consistent) (generation : Nat)
    (answer : Except LoadError LoadedTrace)
    (kept : (s.commitLoad generation answer).session.loaded = s.loaded) :
    (s.commitLoad generation answer).session.breakpoints.revision = s.breakpoints.revision := by
  unfold commitLoad at kept ⊢
  split
  · rfl
  · next accepted =>
    rw [if_neg accepted] at kept
    have loading : s.status = .loading := by simp_all
    rw [(consistent.empty_of_ne (by simp [loading])).1] at kept
    split
    · rfl
    · split
      · rfl
      · next loaded _ navigator created =>
        simp [created, moved] at kept

end Session

namespace Activity

variable {x : Activity} {action : Action}

/-- The action makes a pass of the continuation of a number. The first pass has no
result to take up, a later one the result of the index run asked for in the pass before. -/
inductive Pass (x : Activity) (number : Nat) (direction : Direction) :
    Action → Option IndexResult → Prop where
  | first (next : x.calls.length = number) : Pass x number direction (.beginContinue direction) none
  | later {call : Call} {result : IndexResult} (waiting : x.calls[number]? = some (some call))
      (toward : call.direction = direction) (ran : call.request.run = .ok result) :
      Pass x number direction (.resumeContinue number) (some result)

/-- The action sets no compilation, and it leaves the breakpoints and the trace as they
are. -/
structure Steady (x : Activity) (action : Action) : Prop where
  artifact : ∀ artifact, action ≠ .setArtifact artifact
  breakpoints : (x.perform action).session.breakpoints.breakpoints =
    x.session.breakpoints.breakpoints
  loaded : (x.perform action).session.loaded = x.session.loaded

variable {number : Nat} {direction : Direction} {pending : Option IndexResult}

/-- A pass takes its turn and leaves in its place what it asked for. -/
theorem Pass.perform_eq (pass : x.Pass number direction action pending) :
    ∃ calls, x.perform action =
        { x.take (x.session.continuePass direction pending) with calls } ∧
      calls[number]? =
        some (Call.afterPass direction (x.session.continuePass direction pending).result) := by
  cases pass with
  | first next =>
    subst next
    exact ⟨_, rfl, List.getElem?_concat_length⟩
  | @later call result waiting toward ran =>
    subst toward
    obtain ⟨inside, -⟩ := List.getElem?_eq_some_iff.mp waiting
    refine ⟨x.calls.set number _, ?_, List.getElem?_set_self inside⟩
    simp [perform, resumeContinue, waiting, ran]

theorem Pass.sound (pass : x.Pass number direction action pending) (indexed : x.Indexed) :
    (x.session.breakpoints.takeUp pending).Sound x.session.loaded := by
  cases pass with
  | first => exact indexed.sound
  | later waiting _ ran =>
    exact indexed.sound.takeUp (indexed.calls _ (List.mem_of_getElem? waiting)) ran

/-- What a continuation gives at the end of its last pass, and what it did there. -/
structure EndsWith (x : Activity) (direction : Direction) (action : Action)
    (result : Except NavigationError Continuation) : Prop where
  reaches_iff : ∀ step, x.session.NearestHit direction step ↔
    (∃ handle, result = .ok (.done (some handle)) ∧ handle.step = step) ∧
      (x.perform action).session.cursor = some step ∧
      x.published action = [.breakpointReached step, .cursorChanged step]
  reaches : ∀ handle, result = .ok (.done (some handle)) →
    x.session.NearestHit direction handle.step
  stays_iff : result = .ok (.done none) ↔
    x.session.loaded ≠ none ∧ ¬ x.session.HitBeyond direction
  stays : result = .ok (.done none) →
    (x.perform action).session.cursor = x.session.cursor ∧ (x.perform action).log = x.log
  notLoaded_iff : result = .error .notLoaded ↔ x.session.loaded = none
  inside : ∀ index length, result ≠ .error (.outOfRange index length)

theorem Pass.endsWith (pass : x.Pass number direction action pending) (reachable : x.Reachable)
    (last : ∀ request, (x.session.continuePass direction pending).result ≠ .ok (.index request)) :
    x.EndsWith direction action (x.session.continuePass direction pending).result := by
  have ends := Session.ends_continuePass reachable.consistent reachable.indexed.resolver
    (pass.sound reachable.indexed) last
  obtain ⟨calls, performed, -⟩ := pass.perform_eq
  have session : (x.perform action).session =
      (x.session.continuePass direction pending).session := by
    rw [performed]
    rfl
  have log : (x.perform action).log =
      x.log ++ (x.session.continuePass direction pending).events := by
    rw [performed]
    rfl
  exact {
    reaches_iff := by
      intro step
      constructor
      · intro nearest
        obtain ⟨handle, given, rfl⟩ := ends.exists_handle nearest
        obtain ⟨-, cursor, events⟩ := ends.reaches given
        exact ⟨⟨handle, given, rfl⟩, session ▸ cursor, events ▸ published_eq log⟩
      · rintro ⟨⟨handle, given, rfl⟩, -⟩
        exact (ends.reaches given).1
    reaches := fun handle given => (ends.reaches given).1
    stays_iff := ends.stays_iff
    stays := by
      intro given
      obtain ⟨cursor, events⟩ := ends.stays given
      rw [events, List.append_nil] at log
      exact ⟨session ▸ cursor, log⟩
    notLoaded_iff := ends.notLoaded_iff
    inside := ends.inside }

/-- While the set of breakpoints is not empty, steady actions do not outdate index runs. -/
theorem Steady.revision (steady : x.Steady action) (consistent : x.session.Consistent)
    (some : x.session.breakpoints.breakpoints ≠ []) :
    (x.perform action).session.breakpoints.revision = x.session.breakpoints.revision := by
  have navigation : action.Navigates →
      (x.perform action).session.breakpoints.revision = x.session.breakpoints.revision := by
    intro navigates
    obtain ⟨pending, events, started, steers⟩ := x.steers_perform navigates
    exact steers.revision
  have ending : ∀ place answer, (x.endLoad place answer).session.loaded = x.session.loaded →
      (x.endLoad place answer).session.breakpoints.revision =
        x.session.breakpoints.revision := by
    intro place answer kept
    unfold endLoad at kept ⊢
    split at kept
    · rfl
    · exact Session.revision_commitLoad consistent _ answer kept
  cases action with
  | beginLoad designation =>
    exact Session.revision_beginLoad consistent designation steady.loaded
  | answerLoad place transaction answer => exact ending place _ steady.loaded
  | failLoad place error => exact ending place _ steady.loaded
  | unload => exact Session.revision_unload consistent steady.loaded
  | setProvider provider => rfl
  | setArtifact artifact => exact absurd rfl (steady.artifact artifact)
  | addBreakpoint b =>
    exact congrArg BreakpointEngine.revision (BreakpointEngine.add_eq_self steady.breakpoints)
  | removeBreakpoint b =>
    exact congrArg BreakpointEngine.revision (BreakpointEngine.remove_eq_self steady.breakpoints)
  | clearBreakpoints => exact absurd steady.breakpoints.symm some
  | jumpTo index => exact navigation (.jumpTo index)
  | move movement => exact navigation (.move movement)
  | beginContinue direction => exact navigation (.beginContinue direction)
  | resumeContinue number => exact navigation (.resumeContinue number)
  | finishResolution place => exact navigation (.finishResolution place)
  | crashResolution place => exact navigation (.crashResolution place)

/-- Every action of a run is steady where it is performed. -/
def SteadyRun (x : Activity) (actions : List Action) : Prop :=
  ∀ before action after, actions = before ++ action :: after → (x.run before).Steady action

theorem SteadyRun.revision {actions : List Action} (steady : x.SteadyRun actions)
    (consistent : x.session.Consistent) (some : x.session.breakpoints.breakpoints ≠ []) :
    (x.run actions).session.breakpoints.revision = x.session.breakpoints.revision := by
  induction actions generalizing x with
  | nil => rfl
  | cons action actions ih =>
    have now : x.Steady action := steady [] action actions rfl
    have later : (x.perform action).SteadyRun actions := by
      intro before next after eq
      exact steady (action :: before) next after (by rw [eq, List.cons_append])
    have same := ih later ((x.progress action).consistent consistent)
      (by rw [now.breakpoints]; exact some)
    rw [run_cons, same, now.revision consistent some]

/-- Navigation and the ends of resolutions are steady. -/
theorem steady_of_navigates (navigates : action.Navigates) : x.Steady action := by
  obtain ⟨pending, events, started, steers⟩ := x.steers_perform navigates
  exact {
    artifact := by
      rintro artifact rfl
      cases navigates
    breakpoints := steers.breakpoints
    loaded := steers.keepsTrace.loaded }

theorem steadyRun_of_navigates {actions : List Action} (navigate : ∀ a ∈ actions, a.Navigates) :
    x.SteadyRun actions := by
  rintro before action after rfl
  exact steady_of_navigates (navigate action (by simp))

/-- Only its own passes change what a continuation waits for. -/
theorem getElem?_calls_perform (inside : number < x.calls.length)
    (other : action ≠ .resumeContinue number) :
    (x.perform action).calls[number]? = x.calls[number]? ∧
      number < (x.perform action).calls.length := by
  cases action with
  | answerLoad | failLoad =>
    simp only [perform, endLoad]
    split <;> exact ⟨rfl, inside⟩
  | move =>
    simp only [perform, move]
    split <;> exact ⟨rfl, inside⟩
  | beginContinue =>
    refine ⟨List.getElem?_append_left inside, ?_⟩
    simp only [perform, beginContinue, List.length_append]
    omega
  | resumeContinue place =>
    have elsewhere : place ≠ number := fun eq => other (eq ▸ rfl)
    simp only [perform, resumeContinue]
    split
    · exact ⟨rfl, inside⟩
    · split <;> exact ⟨List.getElem?_set_ne elsewhere, by simpa using inside⟩
  | finishResolution =>
    simp only [perform, finishResolution]
    split
    · exact ⟨rfl, inside⟩
    · split <;> exact ⟨rfl, inside⟩
  | _ => exact ⟨rfl, inside⟩

theorem getElem?_calls_run {actions : List Action} (inside : number < x.calls.length)
    (others : .resumeContinue number ∉ actions) :
    (x.run actions).calls[number]? = x.calls[number]? := by
  induction actions generalizing x with
  | nil => rfl
  | cons action actions ih =>
    rw [List.mem_cons, not_or] at others
    obtain ⟨same, still⟩ := x.getElem?_calls_perform inside (Ne.symm others.1)
    rw [run_cons, ih still others.2, same]

theorem afterPass_eq_some {result : Except NavigationError Continuation} {call : Call}
    (h : Call.afterPass direction result = some call) : call.direction = direction := by
  unfold Call.afterPass at h
  split at h
  · cases h
    rfl
  · cases h

/-- The pass after a pass goes the same way; and its call asked for its index run there. -/
theorem Pass.next (pass : x.Pass number direction action pending) {since : List Action}
    (others : .resumeContinue number ∉ since) {direction' : Direction} {action' : Action}
    {pending' : Option IndexResult}
    (next : ((x.perform action).run since).Pass number direction' action' pending') :
    direction' = direction ∧ ∃ call result loaded,
      some call ∈ ((x.perform action).run since).calls ∧ pending' = some result ∧
      call.request.run = .ok result ∧
      (x.perform action).session.breakpoints.indexRequest loaded = some call.request := by
  obtain ⟨calls, performed, place⟩ := pass.perform_eq
  have left : (x.perform action).calls[number]? =
      some (Call.afterPass direction (x.session.continuePass direction pending).result) := by
    rw [performed]
    exact place
  obtain ⟨inside, -⟩ := List.getElem?_eq_some_iff.mp left
  have kept := getElem?_calls_run inside others
  rw [left] at kept
  cases next with
  | first behind =>
    obtain ⟨known, -⟩ := List.getElem?_eq_some_iff.mp kept
    exact absurd behind (Nat.ne_of_gt known)
  | @later call result waiting toward ran =>
    have waits := Option.some.inj (kept.symm.trans waiting)
    obtain ⟨loaded, -, asked⟩ := asked_of_afterPass rfl waits
    refine ⟨toward.symm.trans (afterPass_eq_some waits), call, result, loaded,
      List.mem_of_getElem? waiting, rfl, ran, ?_⟩
    rw [performed]
    exact asked

/-- Under every interleaving, what a continuation gives is decided in its last pass: it
goes to the nearest hit of the breakpoints, the compilation and the trace of that pass,
seen from the cursor of that pass. Its passes all go the same way, and one that finds
everything as the pass before has left it is the last. -/
theorem last_pass_decides {x : Activity} (reachable : x.Reachable) {number : Nat}
    {direction : Direction} {action : Action} {pending : Option IndexResult}
    (pass : x.Pass number direction action pending) :
    ((∀ request, (x.session.continuePass direction pending).result ≠ .ok (.index request)) →
      x.EndsWith direction action (x.session.continuePass direction pending).result) ∧
    ∀ since direction' action' pending', .resumeContinue number ∉ since →
      ((x.perform action).run since).Pass number direction' action' pending' →
      direction' = direction ∧ ((x.perform action).SteadyRun since → ∀ request,
        (((x.perform action).run since).session.continuePass direction' pending').result ≠
          .ok (.index request)) := by
  refine ⟨pass.endsWith reachable, ?_⟩
  intro since direction' action' pending' others next
  have after : (x.perform action).Reachable := reachable.run [action]
  obtain ⟨same, call, result, loaded, waits, rfl, ran, asked⟩ := pass.next others next
  refine ⟨same, fun steady => ?_⟩
  obtain ⟨c, -, left, request⟩ := BreakpointEngine.indexRequest_eq_some asked
  have some := BreakpointEngine.breakpoints_ne_nil left
  have current : call.request.revision =
      ((x.perform action).run since).session.breakpoints.revision := by
    rw [steady.revision after.consistent some, request]
  have matching := (after.run since).indexed.calls call waits
  exact Session.continuePass_last
    ((BreakpointEngine.unindexed_takeUp_iff matching ran).mpr (.inl current))

/-- A breakpoint on the second row, with the cursor on the first. -/
def firstRow : Activity :=
  rowStart.run (.setArtifact (some rowCompilation) :: rowLoad [0, 1, 2] ++
    [.addBreakpoint (rowBreakpoint 7)])

/-- The cursor jumps behind the hit while a continuation is off indexing. -/
def jumpBehind : List Action := [.jumpTo 2, .finishResolution 0]

def behindHit : Activity := (firstRow.perform (.beginContinue .backward)).run jumpBehind

theorem jumpBehind_decides : ∃ result,
    firstRow.Pass 0 .backward (.beginContinue .backward) none ∧
      .resumeContinue 0 ∉ jumpBehind ∧
      (firstRow.perform (.beginContinue .backward)).SteadyRun jumpBehind ∧
      behindHit.Pass 0 .backward (.resumeContinue 0) (some result) ∧
      (∀ request, (behindHit.session.continuePass .backward (some result)).result ≠
        .ok (.index request)) ∧
      behindHit.EndsWith .backward (.resumeContinue 0)
        (behindHit.session.continuePass .backward (some result)).result ∧
      behindHit.session.NearestHit .backward 1 := by
  have first : firstRow.Pass 0 .backward (.beginContinue .backward) none := .first rfl
  have others : .resumeContinue 0 ∉ jumpBehind := by simp [jumpBehind]
  have steady : (firstRow.perform (.beginContinue .backward)).SteadyRun jumpBehind := by
    apply steadyRun_of_navigates
    intro action mem
    cases mem with
    | head => exact .jumpTo 2
    | tail _ mem =>
      cases List.mem_singleton.mp mem
      exact .finishResolution 0
  have reachable : firstRow.Reachable := reachable_run _ _ _ _
  have after : behindHit.Reachable := reachable.run (.beginContinue .backward :: jumpBehind)
  have waits : (behindHit.calls[0]?.join.bind fun call => call.request.run.toOption).isSome := by
    decide +kernel
  have toward : ∀ call ∈ behindHit.calls[0]?.join, call.direction = .backward := by
    decide +kernel
  obtain ⟨result, found⟩ := Option.isSome_iff_exists.mp waits
  obtain ⟨call, waiting, ran⟩ := Option.bind_eq_some_iff.mp found
  have ran : call.request.run = .ok result := by
    cases ended : call.request.run with
    | error => simp [ended, Except.toOption] at ran
    | ok other => simpa [ended, Except.toOption] using ran
  have second : behindHit.Pass 0 .backward (.resumeContinue 0) (some result) :=
    .later (Option.join_eq_some_iff.mp waiting) (toward call waiting) ran
  have last := ((last_pass_decides reachable first).2 _ _ _ _ others second).2 steady
  have ends := (last_pass_decides after second).1 last
  refine ⟨result, first, others, steady, second, last, ends, ?_⟩
  have published : behindHit.published (.resumeContinue 0) =
      [.breakpointReached 1, .cursorChanged 1] := by decide +kernel
  by_contra elsewhere
  have nowhere : ¬ behindHit.session.HitBeyond .backward := by
    intro beyond
    obtain ⟨step, nearest⟩ := Session.exists_nearestHit_iff.mpr beyond
    have same := published.symm.trans ((ends.reaches_iff step).mp nearest).2.2
    obtain rfl : 1 = step := by simpa using same
    exact elsewhere nearest
  have present : behindHit.session.loaded ≠ none := by
    rw [Option.ne_none_iff_isSome]
    decide +kernel
  have silent := (ends.stays (ends.stays_iff.mpr ⟨present, nowhere⟩)).2
  cases published.symm.trans (published_eq (silent.trans (List.append_nil _).symm))

end Activity

end TraceDebug

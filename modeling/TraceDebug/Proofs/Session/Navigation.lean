import TraceDebug.Proofs.Session.Cursor
import TraceDebug.Proofs.Session.Pass

/-!
# Navigation is all or nothing

A call of navigation gives a handle, and then it made one move, told it once and started
one resolution; or it gives none, and then it left no mark but hits that were missing.
What was under way for the move before is then published as if the call had not been made.
-/

namespace TraceDebug

/-- What is published right before a move that the action makes. -/
def Action.announces : Action → Nat → List SessionEvent
  | .beginContinue _, step => [.breakpointReached step]
  | .resumeContinue _, step => [.breakpointReached step]
  | _, _ => []

namespace Session

/-- A call moved the cursor and gives the handle of the move, or it gives no handle and
has at most taken up a pending result. -/
inductive Gives (s : Session) (pending : Option IndexResult)
    (announced : Nat → List SessionEvent) :
    Session → List SessionEvent → Option Resolution →
      Except NavigationError (Option Resolution) → Prop where
  | moved {n : Navigator} {step : Nat} (navigator : s.navigator = some n)
      (inside : step < n.length) :
      Gives s pending announced
        { s with
          moves := s.moves + 1
          navigator := some { n with cursor := step }
          breakpoints := s.breakpoints.takeUp pending }
        (announced step ++ [.cursorChanged step])
        (some ⟨s.generation, s.moves + 1, step, s.loaded, s.breakpoints.artifact⟩)
        (.ok (some ⟨s.generation, s.moves + 1, step, s.loaded, s.breakpoints.artifact⟩))
  | stayed {result : Except NavigationError (Option Resolution)}
      (without : ∀ handle, result ≠ .ok (some handle)) : Gives s pending announced s [] none result
  | tookUp {result : Except NavigationError (Option Resolution)}
      (without : ∀ handle, result ≠ .ok (some handle)) :
      Gives s pending announced { s with breakpoints := s.breakpoints.takeUp pending } [] none
        result

variable {s : Session}

theorem gives_jumpTo (index : Nat) :
    s.Gives none (Action.jumpTo index).announces (s.jumpTo index).session (s.jumpTo index).events
      (s.jumpTo index).started ((s.jumpTo index).result.map some) := by
  unfold jumpTo
  split
  · apply Gives.stayed
    intro handle given
    cases given
  · next n navigator =>
    split
    · apply Gives.stayed
      intro handle given
      cases given
    · next jumped =>
      obtain ⟨rfl, inside⟩ := jumpTo_eq_ok jumped
      exact .moved navigator inside

theorem gives_moveCursor (consistent : s.Consistent) {movement : Movement}
    {turn : Turn (Except NavigationError (Option Resolution))}
    (made : s.moveCursor movement = .ok turn) :
    s.Gives none (Action.move movement).announces turn.session turn.events turn.started
      turn.result := by
  rcases moveCursor_cases consistent made with
    ⟨-, rfl⟩ | ⟨l, n, -, navigator, ⟨-, rfl⟩ | ⟨step, -, inside, rfl⟩⟩
  · exact .stayed (by simp)
  · exact .stayed (by simp)
  · exact .moved navigator inside

/-- A jump to the next hit is a move, or it gives no handle and leaves all as it is. -/
theorem continueNow_moves (direction : Direction) :
    (∃ n hit, s.navigator = some n ∧ hit < n.length ∧ s.continueNow direction =
      { s with navigator := some { n with cursor := hit } }.moved hit [.breakpointReached hit]
        fun r => .ok (.done (some r))) ∨
    ∃ result, s.continueNow direction = { session := s, result } ∧
      ∀ handle, result ≠ .ok (.done (some handle)) := by
  unfold continueNow
  split
  · exact .inr ⟨_, rfl, by simp⟩
  · next n navigator =>
    split
    · exact .inr ⟨_, rfl, by simp⟩
    · next hit _ =>
      split
      · exact .inr ⟨_, rfl, by simp⟩
      · next jumped =>
        obtain ⟨rfl, inside⟩ := jumpTo_eq_ok jumped
        exact .inl ⟨n, hit, navigator, inside, rfl⟩

theorem gives_continuePass {direction : Direction} {pending : Option IndexResult}
    {result : Except NavigationError (Option Resolution)}
    (last : (s.continuePass direction pending).result = result.map .done) :
    s.Gives pending (fun step => [.breakpointReached step])
      (s.continuePass direction pending).session (s.continuePass direction pending).events
      (s.continuePass direction pending).started result := by
  rcases continuePass_cases (s := s) direction pending rfl with
    ⟨-, same⟩ | ⟨loaded, -, ⟨request, -, asked⟩ | ⟨-, continued⟩⟩
  · rw [same] at last ⊢
    refine .stayed ?_
    rintro handle rfl
    cases last
  · rw [asked] at last
    cases result <;> cases last
  · rw [continued] at last ⊢
    rcases continueNow_moves (s := { s with breakpoints := s.breakpoints.takeUp pending })
      direction with ⟨n, hit, navigator, inside, moved⟩ | ⟨given, stayed, without⟩
    · rw [moved] at last ⊢
      obtain rfl : result = .ok (some ⟨s.generation, s.moves + 1, hit, s.loaded,
          s.breakpoints.artifact⟩) := by
        cases result <;> simp_all [Session.moved, Except.map]
      have gives : s.Gives pending (fun step => [.breakpointReached step]) _ _ _ _ :=
        .moved navigator inside
      simpa [Session.moved] using gives
    · rw [stayed] at last ⊢
      refine .tookUp ?_
      rintro handle rfl
      exact without handle last

/-- The session is as it was, but for hits that were missing. -/
def FilledIn (s s' : Session) : Prop :=
  ∃ entries, s' = { s with breakpoints := { s.breakpoints with entries } } ∧
    entries.keys = s.breakpoints.entries.keys ∧
    ∀ b hits, (b, some hits) ∈ s.breakpoints.entries.entries → (b, some hits) ∈ entries.entries

theorem FilledIn.refl (s : Session) : s.FilledIn s :=
  ⟨s.breakpoints.entries, rfl, rfl, fun _ _ mem => mem⟩

theorem FilledIn.isCurrent_iff {s' : Session} (h : s.FilledIn s') {r : Resolution} :
    r.IsCurrent s' ↔ r.IsCurrent s := by
  obtain ⟨entries, rfl, -⟩ := h
  exact Iff.rfl

theorem FilledIn.resolver {s' : Session} (h : s.FilledIn s') : s'.resolver = s.resolver := by
  obtain ⟨entries, rfl, -⟩ := h
  rfl

theorem jumpTo_fails_iff (consistent : s.Consistent) (index : Nat) :
    (∃ e, (s.jumpTo index).result = .error e) ↔
      s.loaded = none ∨ ∃ l, s.loaded = some l ∧ l.length ≤ index := by
  cases consistent with
  | empty _ trace navigator => simp [jumpTo, navigator, trace]
  | @loaded l n _ trace navigator length =>
    by_cases inside : index < n.length
    · have jumped := Navigator.jumpTo_inside inside
      have below : ¬ l.length ≤ index := by omega
      simp [jumpTo, navigator, jumped, moved, trace, below]
    · have outside : n.length ≤ index := Nat.le_of_not_lt inside
      simp [jumpTo, navigator, Navigator.jumpTo, trace, ← length, outside]

theorem step_jumpTo {index : Nat} {handle : Resolution}
    (given : (s.jumpTo index).result = .ok handle) : handle.step = index := by
  unfold jumpTo at given
  split at given
  · cases given
  · split at given
    · cases given
    · cases given
      rfl

end Session

namespace Activity

variable {x : Activity} {action : Action} {result : Except NavigationError (Option Resolution)}

/-- A call of navigation that is over with the action, and what it gives. A continuation
is over with its last pass, or when its index run fails. -/
inductive Navigation (x : Activity) :
    Action → Except NavigationError (Option Resolution) → Prop where
  | jumpTo (index : Nat) : Navigation x (.jumpTo index) ((x.session.jumpTo index).result.map some)
  | move {movement : Movement} {turn : Turn (Except NavigationError (Option Resolution))}
      (made : x.session.moveCursor movement = .ok turn) : Navigation x (.move movement) turn.result
  | lastPass {number : Nat} {direction : Direction} {action : Action}
      {pending : Option IndexResult} {result : Except NavigationError (Option Resolution)}
      (pass : x.Pass number direction action pending)
      (last : (x.session.continuePass direction pending).result = result.map .done) :
      Navigation x action result
  | failedRun {number : Nat} {call : Call} {fault : Fault}
      (waiting : x.calls[number]? = some (some call)) (failed : call.request.run = .error fault) :
      Navigation x (.resumeContinue number) (.ok none)

theorem Pass.awaits {number : Nat} {direction : Direction} {pending : Option IndexResult}
    (pass : x.Pass number direction action pending) : x.Awaits pending := by
  cases pass with
  | first => exact x.awaits_none
  | later waiting _ ran =>
    rintro result ⟨⟩
    exact ⟨_, List.mem_of_getElem? waiting, ran⟩

/-- What a call gives, with the events it published and the resolution it started. -/
structure Concludes (x : Activity) (action : Action)
    (result : Except NavigationError (Option Resolution)) (pending : Option IndexResult)
    (events : List SessionEvent) (started : Option Resolution) : Prop where
  awaited : x.Awaits pending
  first : (∀ number, action ≠ .resumeContinue number) → pending = none
  gives : x.session.Gives pending action.announces (x.perform action).session events started result
  log : (x.perform action).log = x.log ++ events
  resolutions : (x.perform action).resolutions = x.resolutions ++ started.toList

theorem Navigation.concludes (h : x.Navigation action result) (consistent : x.session.Consistent) :
    ∃ pending events started, x.Concludes action result pending events started := by
  cases h with
  | jumpTo index =>
    exact ⟨none, _, _, x.awaits_none, fun _ => rfl, Session.gives_jumpTo index, rfl, rfl⟩
  | @move movement turn made =>
    have performed : x.perform (.move movement) = x.take turn := by
      simp only [perform, Activity.move, made]
    refine ⟨none, turn.events, turn.started, x.awaits_none, fun _ => rfl, ?_, ?_, ?_⟩
    · rw [performed]
      exact Session.gives_moveCursor consistent made
    · rw [performed]
      rfl
    · rw [performed]
      rfl
  | @lastPass number direction _ pending _ pass last =>
    obtain ⟨calls, performed, -⟩ := pass.perform_eq
    have gives := Session.gives_continuePass last
    have announced : action.announces = fun step => [.breakpointReached step] := by
      cases pass <;> rfl
    refine ⟨pending, (x.session.continuePass direction pending).events,
      (x.session.continuePass direction pending).started, pass.awaits, ?_, ?_, ?_, ?_⟩
    · intro other
      cases pass with
      | first => rfl
      | later => exact absurd rfl (other number)
    · rw [performed, announced]
      exact gives
    · rw [performed]
      rfl
    · rw [performed]
      rfl
  | @failedRun number call fault waiting failed =>
    have performed : x.perform (.resumeContinue number) =
        { x with calls := x.calls.set number none } := by
      simp only [perform, resumeContinue, waiting, Option.join_some, failed]
    refine ⟨none, [], none, x.awaits_none, fun _ => rfl, ?_, ?_, ?_⟩
    · rw [performed]
      exact .stayed (by simp)
    · rw [performed, List.append_nil]
    · rw [performed, Option.toList_none, List.append_nil]

/-- The call made the move of the handle: it told the move once and started to locate
its step, and everything but the cursor and the hits is as before. -/
structure Moved (x : Activity) (action : Action) (handle : Resolution) : Prop where
  cursor : (x.perform action).session.cursor = some handle.step
  moves : (x.perform action).session.moves = x.session.moves + 1
  log : (x.perform action).log =
    x.log ++ (action.announces handle.step ++ [.cursorChanged handle.step])
  resolutions : (x.perform action).resolutions = x.resolutions ++ [handle]
  handle : handle.IsCurrent (x.perform action).session ∧ handle.loaded = x.session.loaded ∧
    handle.artifact = x.session.breakpoints.artifact
  keepsTrace : x.session.KeepsTrace (x.perform action).session
  breakpoints : (x.perform action).session.breakpoints.breakpoints =
    x.session.breakpoints.breakpoints
  artifact : (x.perform action).session.breakpoints.artifact = x.session.breakpoints.artifact

/-- The call left no mark. Only a continuation that was off indexing may have filled in
hits, and a resolution under way is published all the same. -/
structure Unmoved (x : Activity) (action : Action) : Prop where
  session : x.session.FilledIn (x.perform action).session
  unchanged : (∀ number, action ≠ .resumeContinue number) →
    (x.perform action).session = x.session
  log : (x.perform action).log = x.log
  resolutions : (x.perform action).resolutions = x.resolutions
  located : ∀ place r location, x.resolutions[place]? = some r → r.IsCurrent x.session →
    r.run x.session.resolver = .ok (some location) →
    (x.perform action).published (.finishResolution place) = [.locationResolved location]

/-- A resolution of the last move is published when it finishes. -/
theorem published_finishResolution {place : Nat} {r : Resolution} {location : ResolvedLocation}
    (found : x.resolutions[place]? = some r) (current : r.IsCurrent x.session)
    (located : r.run x.session.resolver = .ok (some location)) :
    x.published (.finishResolution place) = [.locationResolved location] := by
  have finished : x.session.finishResolution r =
      { session := x.session, events := [.locationResolved location], result := true } := by
    simp only [Session.finishResolution, located]
    exact Session.publishLocation_current current location
  apply published_eq
  simp only [perform, finishResolution, found, located, finished]
  rfl

/-- A result that a call waits for only fills in hits. -/
theorem Indexed.filledIn (h : x.Indexed) {pending : Option IndexResult}
    (awaited : x.Awaits pending) :
    x.session.FilledIn
      { x.session with breakpoints := x.session.breakpoints.takeUp pending } := by
  obtain ⟨entries, taken, keys⟩ := x.session.breakpoints.exists_takeUp_eq pending
  refine ⟨entries, by rw [taken], keys, ?_⟩
  intro b hits mem
  cases pending with
  | none =>
    have same : x.session.breakpoints.entries = entries :=
      congrArg BreakpointEngine.entries taken
    exact same ▸ mem
  | some result =>
    obtain ⟨call, waits, ran⟩ := awaited result rfl
    have kept := h.sound.mem_takeUp (h.calls call waits) ran mem
    rw [taken] at kept
    exact kept

theorem Concludes.unmoved {pending : Option IndexResult}
    (h : x.Concludes action result pending [] none)
    (filled : x.session.FilledIn (x.perform action).session)
    (unchanged : pending = none → (x.perform action).session = x.session) : x.Unmoved action := by
  have log : (x.perform action).log = x.log := by rw [h.log, List.append_nil]
  have resolutions : (x.perform action).resolutions = x.resolutions := by
    rw [h.resolutions, Option.toList_none, List.append_nil]
  refine ⟨filled, fun other => unchanged (h.first other), log, resolutions, ?_⟩
  intro place r location found current located
  apply published_finishResolution (resolutions ▸ found) (filled.isCurrent_iff.mpr current)
  rw [filled.resolver]
  exact located

/-- A call gives a handle and made its move, or it gives none and left no mark. -/
theorem Concludes.cases {pending : Option IndexResult} {events : List SessionEvent}
    {started : Option Resolution} (h : x.Concludes action result pending events started)
    (indexed : x.Indexed) :
    (∃ handle, result = .ok (some handle) ∧ x.Moved action handle) ∨
      (∀ handle, result ≠ .ok (some handle)) ∧ x.Unmoved action := by
  have gives := h.gives
  generalize eq : (x.perform action).session = s' at gives
  cases gives with
  | @moved n step navigator inside =>
    refine .inl ⟨_, rfl, ?_⟩
    exact {
      cursor := by rw [eq]; rfl
      moves := by rw [eq]
      log := h.log
      resolutions := h.resolutions
      handle := by rw [eq]; exact ⟨⟨rfl, rfl⟩, rfl, rfl⟩
      keepsTrace := by rw [eq]; exact ⟨rfl, rfl, rfl⟩
      breakpoints := by rw [eq]; exact x.session.breakpoints.breakpoints_takeUp pending
      artifact := by rw [eq]; exact x.session.breakpoints.artifact_takeUp pending }
  | stayed without =>
    have filled : x.session.FilledIn (x.perform action).session := eq ▸ .refl x.session
    exact .inr ⟨without, h.unmoved filled fun _ => eq⟩
  | tookUp without =>
    have filled : x.session.FilledIn (x.perform action).session :=
      eq ▸ indexed.filledIn h.awaited
    refine .inr ⟨without, h.unmoved filled ?_⟩
    rintro rfl
    exact eq

/-- What holds of all calls of navigation in a state. -/
structure AllOrNothing (x : Activity) : Prop where
  given : ∀ action result, x.Navigation action result →
    (∃ handle, result = .ok (some handle) ∧ x.Moved action handle) ∨
      (result = .ok none ∨ ∃ e, result = .error e) ∧ x.Unmoved action
  jumped : ∀ index handle, (x.session.jumpTo index).result = .ok handle → handle.step = index
  jump_fails_iff : ∀ index, (∃ e, (x.session.jumpTo index).result = .error e) ↔
    x.session.loaded = none ∨ ∃ l, x.session.loaded = some l ∧ l.length ≤ index
  /-- Positions of steps are words, so that a movement is never without an answer. -/
  answered : (∀ l, x.session.loaded = some l → l.length < wordLimit) →
    ∀ movement, ∃ result, x.Navigation (.move movement) result

/-- Under every interleaving a call of navigation either makes one move, tells it once and
starts one resolution, or it changes nothing but missing hits; and a jump fails only
without a trace or beyond its end. -/
theorem navigation_all_or_nothing (config : SessionConfig) (provider : Provider)
    (converter : Converter) (actions : List Action) :
    AllOrNothing ((start config provider converter).run actions) := by
  have reachable := reachable_run config provider converter actions
  generalize (start config provider converter).run actions = x at reachable
  have consistent := reachable.consistent
  exact {
    given := by
      intro action result navigation
      obtain ⟨pending, events, started, concludes⟩ := navigation.concludes consistent
      refine (concludes.cases reachable.indexed).imp_right fun ⟨without, unmoved⟩ => ⟨?_, unmoved⟩
      match result with
      | .error e => exact .inr ⟨e, rfl⟩
      | .ok none => exact .inl rfl
      | .ok (some handle) => exact absurd rfl (without handle)
    jumped := fun _ _ => Session.step_jumpTo
    jump_fails_iff := Session.jumpTo_fails_iff consistent
    answered := by
      intro addressable movement
      obtain ⟨turn, made⟩ := Session.exists_moveCursor consistent
        (fun l trace => ⟨reachable.indexed_trace l trace, addressable l trace⟩) movement
      exact ⟨turn.result, .move made⟩ }

/-- The first step of a loaded trace is not located yet. -/
def firstStep : List Action := .setArtifact (some rowCompilation) :: rowLoad [0, 1, 2]

theorem firstStep_all_or_nothing :
    (rowStart.run firstStep).Navigation (.jumpTo 3) (.error (.outOfRange 3 3)) ∧
      (rowStart.run firstStep).Unmoved (.jumpTo 3) ∧
      ((rowStart.run firstStep).perform (.jumpTo 3)).published (.finishResolution 0) =
        [.locationResolved ⟨0, .resolved ⟨0, ⟨"src/Token.sol"⟩, ⟨4, 1⟩, ⟨⟨4, 0⟩, ⟨4, 1⟩⟩⟩⟩] ∧
      ∃ handle, (rowStart.run firstStep).Navigation (.move .next) (.ok (some handle)) ∧
        (rowStart.run firstStep).Moved (.move .next) handle ∧ handle.step = 1 := by
  have all : AllOrNothing (rowStart.run firstStep) :=
    navigation_all_or_nothing { parallelIndexing := false } rowProvider rowConverter firstStep
  have rejected : (rowStart.run firstStep).Navigation (.jumpTo 3) (.error (.outOfRange 3 3)) :=
    .jumpTo 3
  have steps : (rowStart.run firstStep).session.stepCount = some 3 := by decide +kernel
  have addressable : ∀ l, (rowStart.run firstStep).session.loaded = some l →
      l.length < wordLimit := by
    intro l trace
    have length : l.length = 3 := by simpa [Session.stepCount, trace] using steps
    simp [length, wordLimit]
  obtain ⟨result, next⟩ := all.answered addressable .next
  have cursor : (rowStart.run firstStep).session.cursor = some 0 := by decide +kernel
  have later : ((rowStart.run firstStep).perform (.move .next)).session.cursor = some 1 := by
    decide +kernel
  refine ⟨rejected, ?_, by decide +kernel, ?_⟩
  · rcases all.given _ _ rejected with ⟨handle, given, -⟩ | ⟨-, unmoved⟩
    · cases given
    · exact unmoved
  · rcases all.given _ _ next with ⟨handle, rfl, moved⟩ | ⟨-, unmoved⟩
    · exact ⟨handle, next, moved, Option.some.inj (moved.cursor.symm.trans later)⟩
    · rw [unmoved.unchanged (by simp), cursor] at later
      cases later

end Activity

end TraceDebug

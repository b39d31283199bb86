import TraceDebug.Proofs.Session.Activity
import TraceDebug.Proofs.Session.Change

/-!
# What an action changes

An action takes a turn of the session, or it ends a resolution. A resolution of the
last move publishes its location; all others end without a word.
-/

namespace TraceDebug

/-- Whether a resolution belongs to the last move of a session. -/
def Resolution.IsCurrent (r : Resolution) (s : Session) : Prop :=
  s.generation = r.generation ∧ s.moves = r.move

instance (r : Resolution) (s : Session) : Decidable (r.IsCurrent s) :=
  inferInstanceAs (Decidable (_ ∧ _))

theorem Session.publishLocation_current {s : Session} {r : Resolution} (h : r.IsCurrent s)
    (location : ResolvedLocation) :
    s.publishLocation r location =
      { session := s, events := [.locationResolved location], result := true } := by
  simp [publishLocation, h.1, h.2]

theorem Session.publishLocation_outdated {s : Session} {r : Resolution} (h : ¬ r.IsCurrent s)
    (location : ResolvedLocation) :
    s.publishLocation r location = { session := s, result := false } := by
  have other : s.generation ≠ r.generation ∨ s.moves ≠ r.move := Decidable.not_and_iff_or_not.mp h
  simp [publishLocation, other]

theorem Session.session_finishResolution (s : Session) (r : Resolution) :
    (s.finishResolution r).session = s := by
  unfold finishResolution
  split
  · next location _ =>
    by_cases current : r.IsCurrent s
    · rw [publishLocation_current current]
    · rw [publishLocation_outdated current]
  · rfl

theorem Resolution.loaded_eq_none {r : Resolution} {resolver : Resolver}
    (h : r.run resolver = .ok none) : r.loaded = none := by
  unfold run at h
  split at h
  · assumption
  · obtain ⟨found, -, some⟩ := Checked.map_eq_ok.mp h
    cases some

theorem Resolution.run_eq_some {r : Resolution} {resolver : Resolver}
    {location : ResolvedLocation} (h : r.run resolver = .ok (some location)) :
    ∃ loaded, r.loaded = some loaded ∧
      loaded.resolve resolver r.step r.artifact = .ok location := by
  unfold run at h
  split at h
  · cases h
  · next loaded carried =>
    obtain ⟨found, located, same⟩ := Checked.map_eq_ok.mp h
    cases same
    exact ⟨loaded, carried, located⟩

/-- The actions that concern the cursor and its location. -/
inductive Action.Navigates : Action → Prop where
  | jumpTo (index : Nat) : Navigates (.jumpTo index)
  | move (movement : Movement) : Navigates (.move movement)
  | beginContinue (direction : Direction) : Navigates (.beginContinue direction)
  | resumeContinue (number : Nat) : Navigates (.resumeContinue number)
  | finishResolution (place : Nat) : Navigates (.finishResolution place)
  | crashResolution (place : Nat) : Navigates (.crashResolution place)

namespace Activity

/-- The calls of `y` that wait for an index run did so in `x`, or have just asked. -/
def Asks (x y : Activity) : Prop :=
  ∀ call, some call ∈ y.calls → some call ∈ x.calls ∨ ∃ loaded, y.session.loaded = some loaded ∧
    y.session.breakpoints.indexRequest loaded = some call.request

/-- A pending result is one of an index run that a call waits for. -/
def Awaits (x : Activity) (pending : Option IndexResult) : Prop :=
  ∀ result, pending = some result → ∃ call, some call ∈ x.calls ∧ call.request.run = .ok result

inductive Progress (x : Activity) (action : Action) (y : Activity) : Prop where
  | turn {pending : Option IndexResult} {events : List SessionEvent}
      {started : Option Resolution} (awaited : x.Awaits pending)
      (change : x.session.Change pending y.session events started)
      (log : y.log = x.log ++ events)
      (resolutions : y.resolutions = x.resolutions ++ started.toList) (calls : x.Asks y)
  | located {place : Nat} {r : Resolution} {location : ResolvedLocation}
      (found : x.resolutions[place]? = some r) (current : r.IsCurrent x.session)
      (located : r.run x.session.resolver = .ok (some location))
      (session : y.session = x.session) (log : y.log = x.log ++ [.locationResolved location])
      (resolutions : y.resolutions = x.resolutions.eraseIdx place) (calls : y.calls = x.calls)
  | ended {place : Nat} {r : Resolution} (found : x.resolutions[place]? = some r)
      (silent : action = .crashResolution place ∨ ¬ r.IsCurrent x.session ∨ r.loaded = none)
      (session : y.session = x.session) (log : y.log = x.log)
      (resolutions : y.resolutions = x.resolutions.eraseIdx place) (calls : y.calls = x.calls)

variable {x : Activity} {action : Action}

theorem awaits_none (x : Activity) : x.Awaits none := fun _ eq => nomatch eq

theorem Progress.refl : Progress x action x :=
  .turn x.awaits_none .refl (by simp) (by simp) fun _ mem => .inl mem

theorem progress_take {turn : Turn α} (makes : x.session.Makes none turn) :
    Progress x action (x.take turn) :=
  .turn x.awaits_none makes rfl rfl fun _ mem => .inl mem

/-- Loads that come and go are not seen by the rest. -/
theorem Progress.withLoads {y : Activity} (h : Progress x action y) (loads : List LoadTicket) :
    Progress x action { y with loads } := by
  cases h with
  | turn awaited change log resolutions calls => exact .turn awaited change log resolutions calls
  | located found current located session log resolutions calls =>
    exact .located found current located session log resolutions calls
  | ended found silent session log resolutions calls =>
    exact .ended found silent session log resolutions calls

theorem progress_endLoad (place : Nat) (answer : Except LoadError LoadedTrace) :
    Progress x action (x.endLoad place answer) := by
  unfold endLoad
  split
  · exact .refl
  · exact (progress_take (Session.makes_commitLoad _ _)).withLoads _

theorem progress_move (movement : Movement) : Progress x action (x.move movement) := by
  unfold move
  split
  · next moved => exact progress_take (Session.steers_moveCursor moved).change
  · exact .refl

/-- A call that waits after a pass has asked for its index run in this pass. -/
theorem asked_of_afterPass {s : Session} {direction : Direction} {pending : Option IndexResult}
    {turn : Turn (Except NavigationError Continuation)}
    (made : s.continuePass direction pending = turn) {call : Call}
    (waits : Call.afterPass direction turn.result = some call) :
    ∃ loaded, turn.session.loaded = some loaded ∧
      turn.session.breakpoints.indexRequest loaded = some call.request := by
  rcases Session.continuePass_cases direction pending made with
    ⟨-, rfl⟩ | ⟨loaded, trace, ⟨request, asked, rfl⟩ | ⟨-, rfl⟩⟩
  · cases waits
  · cases waits
    exact ⟨loaded, trace, asked⟩
  · rcases Session.continueNow_cases
      (s := { s with breakpoints := s.breakpoints.takeUp pending }) direction with
      ⟨result, stayed, last, -⟩ | ⟨n, hit, -, -, -, moved⟩
    · rw [stayed] at waits
      unfold Call.afterPass at waits
      split at waits
      · next request eq => exact absurd eq (last request)
      · cases waits
    · rw [moved] at waits
      cases waits

theorem progress_beginContinue (direction : Direction) :
    Progress x action (x.beginContinue direction) := by
  refine .turn x.awaits_none (Session.steers_continuePass direction none).change rfl rfl ?_
  intro call mem
  rcases List.mem_append.mp mem with mem | mem
  · exact .inl mem
  · exact .inr (asked_of_afterPass rfl (List.mem_singleton.mp mem).symm)

theorem progress_resumeContinue (number : Nat) :
    Progress x action (x.resumeContinue number) := by
  unfold resumeContinue
  split
  · exact .refl
  · next call waiting =>
    have mem : some call ∈ x.calls := List.mem_of_getElem? (Option.join_eq_some_iff.mp waiting)
    split
    · next fault =>
      refine .turn x.awaits_none .refl (by simp) (by simp) ?_
      intro other mem
      rcases List.mem_or_eq_of_mem_set mem with mem | eq
      · exact .inl mem
      · cases eq
    · next result ran =>
      have awaited : x.Awaits (some result) := by
        intro other eq
        cases eq
        exact ⟨call, mem, ran⟩
      have steers := x.session.steers_continuePass call.direction (some result)
      refine .turn awaited steers.change rfl rfl ?_
      intro other mem
      rcases List.mem_or_eq_of_mem_set mem with mem | eq
      · exact .inl mem
      · exact .inr (asked_of_afterPass rfl eq.symm)

theorem progress_finishResolution (place : Nat) :
    Progress x action (x.finishResolution place) := by
  unfold finishResolution
  split
  · exact .refl
  · next r found =>
    split
    · exact .refl
    · next answer ran =>
      cases answer with
      | none =>
        have silent : x.session.finishResolution r = { session := x.session, result := false } := by
          simp [Session.finishResolution, ran]
        rw [silent]
        exact .ended found (.inr (.inr (r.loaded_eq_none ran))) rfl (by simp [take, dropResolution])
          (by simp [take, dropResolution]) rfl
      | some location =>
        have published : x.session.finishResolution r = x.session.publishLocation r location := by
          simp [Session.finishResolution, ran]
        rw [published]
        by_cases current : r.IsCurrent x.session
        · rw [Session.publishLocation_current current]
          exact .located found current ran rfl rfl (by simp [take, dropResolution]) rfl
        · rw [Session.publishLocation_outdated current]
          exact .ended found (.inr (.inl current)) rfl (by simp [take, dropResolution])
            (by simp [take, dropResolution]) rfl

theorem progress_crashResolution (place : Nat) :
    Progress x (.crashResolution place) (x.dropResolution place) := by
  cases found : x.resolutions[place]? with
  | none =>
    have outside : x.resolutions.length ≤ place := List.getElem?_eq_none_iff.mp found
    have same : x.dropResolution place = x := by
      rw [dropResolution, List.eraseIdx_of_length_le outside]
    rw [same]
    exact .refl
  | some r => exact .ended found (.inl rfl) rfl rfl rfl rfl

theorem progress (x : Activity) (action : Action) : Progress x action (x.perform action) := by
  cases action with
  | beginLoad designation => exact (progress_take (Session.makes_beginLoad designation)).withLoads _
  | answerLoad place transaction answer => exact progress_endLoad place _
  | failLoad place error => exact progress_endLoad place _
  | unload => exact progress_take Session.makes_unload
  | setProvider provider => exact progress_take (Session.makes_setProvider provider)
  | setArtifact artifact => exact progress_take (Session.makes_setArtifact artifact)
  | addBreakpoint b => exact progress_take (Session.makes_addBreakpoint b)
  | removeBreakpoint b => exact progress_take (Session.makes_removeBreakpoint b)
  | clearBreakpoints => exact progress_take Session.makes_clearBreakpoints
  | jumpTo index => exact progress_take (Session.steers_jumpTo index).change
  | move movement => exact progress_move movement
  | beginContinue direction => exact progress_beginContinue direction
  | resumeContinue number => exact progress_resumeContinue number
  | finishResolution place => exact progress_finishResolution place
  | crashResolution place => exact progress_crashResolution place

theorem session_finishResolution (x : Activity) (place : Nat) :
    (x.finishResolution place).session = x.session := by
  unfold finishResolution
  split
  · rfl
  · split
    · rfl
    · exact Session.session_finishResolution _ _

/-- Navigating actions and the ends of resolutions steer the session at most. -/
theorem steers_perform (x : Activity) {action : Action} (navigates : action.Navigates) :
    ∃ pending events started,
      x.session.Steers pending (x.perform action).session events started := by
  have still : ∃ pending events started, x.session.Steers pending x.session events started :=
    ⟨none, [], none, .stayed⟩
  cases navigates with
  | jumpTo index => exact ⟨none, _, _, Session.steers_jumpTo index⟩
  | move movement =>
    simp only [perform, move]
    split
    · next moved => exact ⟨none, _, _, Session.steers_moveCursor moved⟩
    · exact still
  | beginContinue direction => exact ⟨none, _, _, Session.steers_continuePass direction none⟩
  | resumeContinue number =>
    simp only [perform, resumeContinue]
    split
    · exact still
    · next call _ =>
      split
      · exact still
      · next result _ => exact ⟨some result, _, _, Session.steers_continuePass call.direction _⟩
  | finishResolution place =>
    rw [perform, session_finishResolution]
    exact still
  | crashResolution place => exact still

theorem Progress.consistent {y : Activity} (progress : Progress x action y)
    (h : x.session.Consistent) : y.session.Consistent := by
  cases progress with
  | turn _ change => exact change.consistent h
  | located _ _ _ session => exact session ▸ h
  | ended _ _ session => exact session ▸ h

theorem Reachable.consistent (h : x.Reachable) : x.session.Consistent :=
  h.invariant (fun _ _ _ => .empty (by simp [start, Session.new]) rfl rfl)
    fun y action _ => (y.progress action).consistent

end Activity

end TraceDebug

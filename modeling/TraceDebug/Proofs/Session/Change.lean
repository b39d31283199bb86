import TraceDebug.Proofs.Breakpoint.Engine
import TraceDebug.Session.Turn

/-!
# What a turn changes

All turns of a session are told apart by what they do to it. Invariants are proved
from this list of cases; the turns themselves are not opened again.
-/

namespace TraceDebug

namespace Session

/-- What a turn does: the session after it, the events and the started resolution. -/
inductive Change (s : Session) (pending : Option IndexResult) :
    Session → List SessionEvent → Option Resolution → Prop where
  | edited {breakpoints : BreakpointEngine} (provider : Provider)
      (engine : s.breakpoints.Change pending breakpoints) :
      Change s pending { s with provider, breakpoints } [] none
  | moved {n : Navigator} {step : Nat} {before : List SessionEvent}
      (navigator : s.navigator = some n) (inside : step < n.length)
      (announced : before = [] ∨ before = [.breakpointReached step]) :
      Change s pending
        { s with
          moves := s.moves + 1
          navigator := some { n with cursor := step }
          breakpoints := s.breakpoints.takeUp pending }
        (before ++ [.cursorChanged step])
        (some ⟨s.generation, s.moves + 1, step, s.loaded, s.breakpoints.artifact⟩)
  | unloaded (status : s.status = .loaded) :
      Change s pending
        { s with
          generation := s.generation + 1
          loaded := none
          navigator := none
          status := .unloaded
          breakpoints := s.breakpoints.invalidateTrace }
        [.statusChanged false, .unloaded] none
  | cancelled (status : s.status = .loading) :
      Change s pending { s with generation := s.generation + 1, status := .unloaded }
        [.unloaded] none
  | awaited (status : s.status = .idle ∨ s.status = .unloaded) :
      Change s pending { s with generation := s.generation + 1, status := .loading } [] none
  | replaced (status : s.status = .loaded) :
      Change s pending
        { s with
          generation := s.generation + 1 + 1
          loaded := none
          navigator := none
          status := .loading
          breakpoints := s.breakpoints.invalidateTrace }
        [.statusChanged false, .unloaded] none
  | failed (status : s.status = .loading) : Change s pending { s with status := .idle } [] none
  | installed {loaded : LoadedTrace} (status : s.status = .loading)
      (nonempty : 0 < loaded.length) :
      Change s pending
        { s with
          moves := s.moves + 1
          loaded := some loaded
          navigator := some ⟨0, loaded.length⟩
          status := .loaded
          breakpoints := s.breakpoints.invalidateTrace }
        [.statusChanged true, .cursorChanged 0]
        (some ⟨s.generation, s.moves + 1, 0, some loaded, s.breakpoints.artifact⟩)

/-- A turn makes a change. -/
def Makes (s : Session) (pending : Option IndexResult) (turn : Turn α) : Prop :=
  s.Change pending turn.session turn.events turn.started

variable {s : Session} {pending : Option IndexResult}

theorem Change.refl : s.Change pending s [] none := .edited s.provider .same

theorem makes_unload : s.Makes pending s.unload := by
  unfold Makes unload
  split
  · next status => exact .unloaded status
  · next status => exact .cancelled status
  · exact .refl
  · exact .refl

theorem makes_beginLoad (designation : TransactionRef) :
    s.Makes pending (s.beginLoad designation) := by
  unfold Makes beginLoad
  split
  · exact .refl
  · next notLoading =>
    unfold unload
    split
    · next status => exact .replaced status
    · next status => exact absurd status notLoading
    · next status => exact .awaited (.inl status)
    · next status => exact .awaited (.inr status)

theorem new?_eq_some {length : Nat} {n : Navigator} (h : Navigator.new? length = some n) :
    n = ⟨0, length⟩ ∧ 0 < length := by
  unfold Navigator.new? at h
  split at h
  · next positive => exact ⟨(Option.some.inj h).symm, positive⟩
  · cases h

theorem makes_commitLoad (generation : Nat) (answer : Except LoadError LoadedTrace) :
    s.Makes pending (s.commitLoad generation answer) := by
  unfold Makes commitLoad
  split
  · exact .refl
  · next accepted =>
    have status : s.status = .loading := by simp_all
    split
    · exact .failed status
    · split
      · exact .failed status
      · next navigator created =>
        obtain ⟨rfl, nonempty⟩ := new?_eq_some created
        exact .installed status nonempty

theorem makes_setProvider (provider : Provider) : s.Makes none (s.setProvider provider) :=
  .edited provider .same

theorem makes_setArtifact (artifact : Option Compilation) :
    s.Makes none (s.setArtifact artifact) :=
  .edited s.provider (.invalidate s.breakpoints.entries artifact)

theorem makes_addBreakpoint (b : Breakpoint) : s.Makes none (s.addBreakpoint b) :=
  .edited s.provider (s.breakpoints.change_add b)

theorem makes_removeBreakpoint (b : Breakpoint) : s.Makes none (s.removeBreakpoint b) :=
  .edited s.provider (s.breakpoints.change_remove b)

theorem makes_clearBreakpoints : s.Makes none s.clearBreakpoints :=
  .edited s.provider (.invalidate .empty s.breakpoints.artifact)

theorem jumpTo_eq_ok {n m : Navigator} {index : Nat} (h : n.jumpTo index = .ok m) :
    m = { n with cursor := index } ∧ index < n.length := by
  unfold Navigator.jumpTo at h
  split at h
  · cases h
  · next inside => exact ⟨(Except.ok.inj h).symm, Nat.lt_of_not_le inside⟩

/-- What navigation does: it may take up a pending result, and it may move the cursor. -/
inductive Steers (s : Session) (pending : Option IndexResult) :
    Session → List SessionEvent → Option Resolution → Prop where
  | stayed : Steers s pending s [] none
  | tookUp : Steers s pending { s with breakpoints := s.breakpoints.takeUp pending } [] none
  | moved {n : Navigator} {step : Nat} {before : List SessionEvent}
      (navigator : s.navigator = some n) (inside : step < n.length)
      (announced : before = [] ∨ before = [.breakpointReached step]) :
      Steers s pending
        { s with
          moves := s.moves + 1
          navigator := some { n with cursor := step }
          breakpoints := s.breakpoints.takeUp pending }
        (before ++ [.cursorChanged step])
        (some ⟨s.generation, s.moves + 1, step, s.loaded, s.breakpoints.artifact⟩)

/-- What navigation leaves alone. -/
structure KeepsTrace (s s' : Session) : Prop where
  status : s'.status = s.status
  generation : s'.generation = s.generation
  loaded : s'.loaded = s.loaded

theorem Steers.change {s' : Session} {events : List SessionEvent} {started : Option Resolution}
    (h : s.Steers pending s' events started) : s.Change pending s' events started := by
  cases h with
  | stayed => exact .refl
  | tookUp => exact .edited s.provider .takeUp
  | moved navigator inside announced => exact .moved navigator inside announced

theorem Steers.keepsTrace {s' : Session} {events : List SessionEvent}
    {started : Option Resolution} (h : s.Steers pending s' events started) : s.KeepsTrace s' := by
  cases h <;> exact ⟨rfl, rfl, rfl⟩

theorem Steers.revision {s' : Session} {events : List SessionEvent}
    {started : Option Resolution} (h : s.Steers pending s' events started) :
    s'.breakpoints.revision = s.breakpoints.revision := by
  cases h with
  | stayed => rfl
  | tookUp => exact s.breakpoints.revision_takeUp pending
  | moved => exact s.breakpoints.revision_takeUp pending

theorem Steers.breakpoints {s' : Session} {events : List SessionEvent}
    {started : Option Resolution} (h : s.Steers pending s' events started) :
    s'.breakpoints.breakpoints = s.breakpoints.breakpoints := by
  cases h with
  | stayed => rfl
  | tookUp => exact s.breakpoints.breakpoints_takeUp pending
  | moved => exact s.breakpoints.breakpoints_takeUp pending

theorem steers_jumpTo (index : Nat) :
    s.Steers none (s.jumpTo index).session (s.jumpTo index).events (s.jumpTo index).started := by
  unfold jumpTo
  split
  · exact .stayed
  · next n navigator =>
    split
    · exact .stayed
    · next jumped =>
      obtain ⟨rfl, inside⟩ := jumpTo_eq_ok jumped
      exact .moved navigator inside (.inl rfl)

theorem steers_moveCursor {movement : Movement}
    {turn : Turn (Except NavigationError (Option Resolution))}
    (h : s.moveCursor movement = .ok turn) :
    s.Steers none turn.session turn.events turn.started := by
  unfold moveCursor at h
  split at h
  · next n loaded navigator _ =>
    obtain ⟨target, -, h⟩ := Checked.bind_eq_ok.mp h
    cases target with
    | none =>
      cases h
      exact .stayed
    | some step =>
      dsimp only at h
      split at h
      · cases h
        exact .stayed
      · next jumped =>
        cases h
        obtain ⟨rfl, inside⟩ := jumpTo_eq_ok jumped
        exact .moved navigator inside (.inl rfl)
  · cases h
    exact .stayed

/-- A pass takes up the pending result; then it asks for an index run, or it stays,
or it moves the cursor to the next hit. -/
theorem continuePass_cases (direction : Direction) (pending : Option IndexResult)
    {turn : Turn (Except NavigationError Continuation)}
    (h : s.continuePass direction pending = turn) :
    (s.loaded = none ∧ turn = { session := s, result := .error .notLoaded }) ∨
    ∃ loaded, s.loaded = some loaded ∧
      ((∃ request, (s.breakpoints.takeUp pending).indexRequest loaded = some request ∧
        turn = { session := { s with breakpoints := s.breakpoints.takeUp pending }
                 result := .ok (.index request) }) ∨
      (s.breakpoints.takeUp pending).indexRequest loaded = none ∧
        turn = { s with breakpoints := s.breakpoints.takeUp pending }.continueNow direction) := by
  subst h
  unfold continuePass
  split
  · next empty => exact .inl ⟨empty, rfl⟩
  · next loaded trace =>
    refine .inr ⟨loaded, trace, ?_⟩
    dsimp only
    split
    · next request asked => exact .inl ⟨request, asked, rfl⟩
    · next quiet => exact .inr ⟨quiet, rfl⟩

/-- With a hit inside the trace the cursor moves there, and otherwise all stays. -/
theorem continueNow_cases (direction : Direction) :
    (∃ result, s.continueNow direction = { session := s, result } ∧
      (∀ request, result ≠ .ok (.index request)) ∧
      ∀ n hit, s.navigator = some n → s.breakpoints.nextHit n.cursor direction = some hit →
        n.length ≤ hit) ∨
    ∃ n hit, s.navigator = some n ∧ s.breakpoints.nextHit n.cursor direction = some hit ∧
      hit < n.length ∧
      s.continueNow direction =
        { s with navigator := some { n with cursor := hit } }.moved hit [.breakpointReached hit]
          fun r => .ok (.done (some r)) := by
  cases navigator : s.navigator with
  | none =>
    refine .inl ⟨.error .notLoaded, by simp [continueNow, navigator], by simp, ?_⟩
    intro n hit eq
    cases eq
  | some n =>
    cases next : s.breakpoints.nextHit n.cursor direction with
    | none =>
      refine .inl ⟨.ok (.done none), by simp [continueNow, navigator, next], by simp, ?_⟩
      intro m hit eq found
      cases eq
      cases next.symm.trans found
    | some hit =>
      by_cases inside : hit < n.length
      · refine .inr ⟨n, hit, rfl, next, inside, ?_⟩
        simp [continueNow, navigator, next, Navigator.jumpTo, Nat.not_le.mpr inside]
      · have outside : n.length ≤ hit := Nat.le_of_not_lt inside
        refine .inl ⟨.error (.outOfRange hit n.length), ?_, by simp, ?_⟩
        · simp [continueNow, navigator, next, Navigator.jumpTo, outside]
        · intro m other eq found
          cases eq
          obtain rfl : hit = other := Option.some.inj (next.symm.trans found)
          exact outside

theorem steers_continuePass (direction : Direction) (pending : Option IndexResult) :
    s.Steers pending (s.continuePass direction pending).session
      (s.continuePass direction pending).events (s.continuePass direction pending).started := by
  rcases continuePass_cases (s := s) direction pending rfl with
    ⟨-, same⟩ | ⟨loaded, -, ⟨request, -, asked⟩ | ⟨-, continued⟩⟩
  · rw [same]
    exact .stayed
  · rw [asked]
    exact .tookUp
  · rw [continued]
    rcases continueNow_cases (s := { s with breakpoints := s.breakpoints.takeUp pending })
      direction with ⟨result, stayed, -⟩ | ⟨n, hit, navigator, -, inside, moved⟩
    · rw [stayed]
      exact .tookUp
    · rw [moved]
      have announced : [SessionEvent.breakpointReached hit] = [] ∨
          [SessionEvent.breakpointReached hit] = [.breakpointReached hit] := .inr rfl
      have steers : s.Steers pending _ _ _ :=
        .moved (show s.navigator = some n from navigator) inside announced
      simpa [Session.moved] using steers

/-- A loaded session has a cursor inside its trace; any other has neither. -/
inductive Consistent (s : Session) : Prop where
  | loaded {l : LoadedTrace} {n : Navigator} (status : s.status = .loaded)
      (trace : s.loaded = some l) (navigator : s.navigator = some n)
      (length : n.length = l.length) (inside : n.cursor < n.length)
  | empty (status : s.status ≠ .loaded) (trace : s.loaded = none) (navigator : s.navigator = none)

theorem Consistent.empty_of_ne (h : s.Consistent) (status : s.status ≠ .loaded) :
    s.loaded = none ∧ s.navigator = none := by
  cases h with
  | loaded loaded => exact absurd loaded status
  | empty _ trace navigator => exact ⟨trace, navigator⟩

theorem Consistent.loaded_of_cursor (h : s.Consistent) {step : Nat}
    (cursor : s.cursor = some step) : s.status = .loaded := by
  cases h with
  | loaded status => exact status
  | empty _ _ navigator => simp [Session.cursor, navigator] at cursor

theorem Consistent.cursor_eq_none (h : s.Consistent) (empty : s.status ≠ .loaded) :
    s.cursor = none := by
  simp [cursor, (h.empty_of_ne empty).2]

theorem loaded_unload (consistent : s.Consistent) : s.unload.session.loaded = none := by
  unfold unload
  split
  · rfl
  · next loading => exact (consistent.empty_of_ne (by simp [loading])).1
  · next idle => exact (consistent.empty_of_ne (by simp [idle])).1
  · next gone => exact (consistent.empty_of_ne (by simp [gone])).1

theorem loaded_beginLoad (consistent : s.Consistent) (designation : TransactionRef) :
    (s.beginLoad designation).session.loaded = none := by
  have dropped := loaded_unload consistent
  unfold beginLoad
  split
  · next loading => exact (consistent.empty_of_ne (by simp [loading])).1
  · exact dropped

theorem Change.consistent {s' : Session} {events : List SessionEvent}
    {started : Option Resolution} (change : s.Change pending s' events started)
    (h : s.Consistent) : s'.Consistent := by
  cases change with
  | edited =>
    cases h with
    | loaded status trace navigator length inside =>
      exact .loaded status trace navigator length inside
    | empty status trace navigator => exact .empty status trace navigator
  | moved found inside =>
    cases h with
    | loaded status trace navigator length =>
      cases found.symm.trans navigator
      exact .loaded status trace rfl length inside
    | empty _ _ navigator => cases found.symm.trans navigator
  | unloaded => exact .empty (by simp) rfl rfl
  | cancelled loading =>
    obtain ⟨trace, navigator⟩ := h.empty_of_ne (by simp [loading])
    exact .empty (by simp) trace navigator
  | awaited waiting =>
    have notLoaded : s.status ≠ .loaded := by rcases waiting with idle | gone <;> simp [*]
    obtain ⟨trace, navigator⟩ := h.empty_of_ne notLoaded
    exact .empty (by simp) trace navigator
  | replaced => exact .empty (by simp) rfl rfl
  | failed loading =>
    obtain ⟨trace, navigator⟩ := h.empty_of_ne (by simp [loading])
    exact .empty (by simp) trace navigator
  | installed _ nonempty => exact .loaded rfl rfl rfl rfl nonempty

end Session

end TraceDebug

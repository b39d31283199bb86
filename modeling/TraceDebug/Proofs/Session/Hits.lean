import TraceDebug.Proofs.Session.Progress

/-!
# Hits are never stale

Index runs end in any order and at any time. Since a change of the breakpoints, the
compilation or the trace raises the revision, a result is taken up only if all three
are still those it was computed for.
-/

namespace TraceDebug

/-- A turn makes the engine forget all hits, or at most take up the pending result;
only then does the trace stay. -/
theorem Session.Change.engine {s s' : Session} {pending : Option IndexResult}
    {events : List SessionEvent} {started : Option Resolution}
    (change : s.Change pending s' events started) :
    s'.resolver = s.resolver ∧
    ((∃ entries artifact,
      s'.breakpoints = BreakpointEngine.invalidate { s.breakpoints with entries, artifact }) ∨
    s'.loaded = s.loaded ∧
      (s'.breakpoints = s.breakpoints ∨ s'.breakpoints = s.breakpoints.takeUp pending)) := by
  cases change with
  | edited provider engine =>
    cases engine with
    | same => exact ⟨rfl, .inr ⟨rfl, .inl rfl⟩⟩
    | takeUp => exact ⟨rfl, .inr ⟨rfl, .inr rfl⟩⟩
    | invalidate entries artifact => exact ⟨rfl, .inl ⟨entries, artifact, rfl⟩⟩
  | moved => exact ⟨rfl, .inr ⟨rfl, .inr rfl⟩⟩
  | cancelled => exact ⟨rfl, .inr ⟨rfl, .inl rfl⟩⟩
  | awaited => exact ⟨rfl, .inr ⟨rfl, .inl rfl⟩⟩
  | failed => exact ⟨rfl, .inr ⟨rfl, .inl rfl⟩⟩
  | unloaded => exact ⟨rfl, .inl ⟨_, _, rfl⟩⟩
  | replaced => exact ⟨rfl, .inl ⟨_, _, rfl⟩⟩
  | installed => exact ⟨rfl, .inl ⟨_, _, rfl⟩⟩

namespace Activity

/-- The engine is sound, and the requests under way are of its past or match it. -/
structure Indexed (x : Activity) : Prop where
  resolver : x.session.breakpoints.resolver = x.session.resolver
  sound : x.session.breakpoints.Sound x.session.loaded
  calls : ∀ call, some call ∈ x.calls →
    call.request.Matches x.session.breakpoints x.session.loaded

theorem indexed_start (config : SessionConfig) (provider : Provider) (converter : Converter) :
    (start config provider converter).Indexed where
  resolver := rfl
  sound := .unindexed fun _ mem => nomatch mem
  calls := fun _ mem => nomatch mem

theorem Indexed.progress {x y : Activity} {action : Action} (h : x.Indexed)
    (progress : Progress x action y) : y.Indexed := by
  cases progress with
  | located _ _ _ session _ _ calls =>
    exact ⟨session ▸ h.resolver, session ▸ h.sound, by rw [session, calls]; exact h.calls⟩
  | ended _ _ session _ _ calls =>
    exact ⟨session ▸ h.resolver, session ▸ h.sound, by rw [session, calls]; exact h.calls⟩
  | @turn pending events started awaited change _ _ asks =>
    obtain ⟨resolver, engine⟩ := change.engine
    -- The requests of `x` still match, and the engine stays sound.
    have kept : y.session.breakpoints.resolver = x.session.breakpoints.resolver ∧
        y.session.breakpoints.Sound y.session.loaded ∧ ∀ call, some call ∈ x.calls →
          call.request.Matches y.session.breakpoints y.session.loaded := by
      rcases engine with ⟨entries, artifact, forgot⟩ | ⟨trace, same | taken⟩
      · rw [forgot]
        exact ⟨rfl, BreakpointEngine.sound_invalidate _ _, fun call mem =>
          BreakpointEngine.matches_invalidate (h.calls call mem) entries artifact _⟩
      · rw [same, trace]
        exact ⟨rfl, h.sound, h.calls⟩
      · rw [taken, trace]
        refine ⟨BreakpointEngine.resolver_takeUp _ _, ?_, fun call mem =>
          BreakpointEngine.matches_takeUp (h.calls call mem) pending⟩
        cases pending with
        | none => exact h.sound
        | some result =>
          obtain ⟨call, mem, ran⟩ := awaited result rfl
          exact h.sound.takeUp (h.calls call mem) ran
    obtain ⟨same, sound, matching⟩ := kept
    refine ⟨by rw [same, resolver]; exact h.resolver, sound, ?_⟩
    intro call mem
    rcases asks call mem with mem | ⟨l, trace, asked⟩
    · exact matching call mem
    · rw [trace] at sound ⊢
      exact sound.matches_indexRequest asked

theorem Reachable.indexed {x : Activity} (h : x.Reachable) : x.Indexed :=
  h.invariant indexed_start fun y action _ indexed => indexed.progress (y.progress action)

/-- Under every interleaving, hits that a breakpoint holds are all its hits in the
loaded trace under the active compilation, and either all breakpoints hold their hits
or none does. -/
theorem hits_never_stale {x : Activity} (reachable : x.Reachable) :
    (∀ b hits, (b, some hits) ∈ x.session.breakpoints.entries.entries →
      ∃ loaded artifact, x.session.loaded = some loaded ∧
        x.session.breakpoints.artifact = some artifact ∧ hits.Pairwise (· < ·) ∧
        ∀ step, step ∈ hits ↔ step < loaded.length ∧ ∃ location,
          loaded.resolve x.session.resolver step (some artifact) =
            .ok ⟨step, .resolved location⟩ ∧
          location.path.endsWith b.file = true ∧ location.span.start.line = b.row) ∧
    ((∀ e ∈ x.session.breakpoints.entries.entries, e.2 = none) ∨
      ∀ e ∈ x.session.breakpoints.entries.entries, ∃ hits, e.2 = some hits) := by
  have indexed := reachable.indexed
  cases indexed.sound with
  | unindexed all =>
    refine ⟨?_, .inl all⟩
    intro b hits mem
    cases all _ mem
  | @indexed loaded artifact trace active all =>
    refine ⟨fun b hits mem => ⟨loaded, artifact, trace, active, ?_⟩, .inr fun e mem =>
      ⟨_, all e mem⟩⟩
    obtain rfl : hits = loaded.hitSteps x.session.resolver artifact b := by
      have held := Option.some.inj (all _ mem)
      rw [indexed.resolver] at held
      exact held
    exact ⟨loaded.hitSteps_ascending _ _ _, fun step => LoadedTrace.mem_hitSteps⟩

def rowBreakpoint (row : Nat) : Breakpoint := ⟨⟨"Token.sol"⟩, row⟩

/-- A breakpoint is added while the first of two continuations is off indexing. -/
def crossedContinues : List Action :=
  .setArtifact (some rowCompilation) :: rowLoad [1, 0] ++
    [.addBreakpoint (rowBreakpoint 4), .beginContinue .forward, .addBreakpoint (rowBreakpoint 7),
      .beginContinue .backward, .resumeContinue 0, .resumeContinue 1]

theorem crossedContinues_hits :
    (rowStart.run crossedContinues).Reachable ∧
      (rowBreakpoint 4, some [1]) ∈
        (rowStart.run crossedContinues).session.breakpoints.entries.entries ∧
      ∃ loaded artifact, (rowStart.run crossedContinues).session.loaded = some loaded ∧
        (rowStart.run crossedContinues).session.breakpoints.artifact = some artifact ∧
        [1].Pairwise (· < ·) ∧ ∀ step, step ∈ [1] ↔ step < loaded.length ∧ ∃ location,
          loaded.resolve (rowStart.run crossedContinues).session.resolver step (some artifact) =
            .ok ⟨step, .resolved location⟩ ∧
          location.path.endsWith (rowBreakpoint 4).file = true ∧ location.span.start.line = 4 := by
  have reachable : (rowStart.run crossedContinues).Reachable := reachable_run _ _ _ _
  have held : (rowBreakpoint 4, some [1]) ∈
      (rowStart.run crossedContinues).session.breakpoints.entries.entries := by decide +kernel
  exact ⟨reachable, held, (hits_never_stale reachable).1 _ _ held⟩

end Activity

end TraceDebug

import TraceDebug.Breakpoint.HitIndex

/-!
# Hits, step by step

The steps of a loaded trace that hit a breakpoint when each is resolved by itself.
-/

namespace TraceDebug

/-- A location is for the step it was asked for. -/
theorem LoadedTrace.step_of_resolve {l : LoadedTrace} {resolver : Resolver} {step : Nat}
    {artifact : Option Compilation} {location : ResolvedLocation}
    (h : l.resolve resolver step artifact = .ok location) : location.step = step := by
  unfold resolve Resolver.resolveStep at h
  obtain ⟨answer, -, h⟩ := Checked.bind_eq_ok.mp h
  cases answer with
  | error cause =>
    cases h
    rfl
  | ok address =>
    dsimp only at h
    split at h
    · cases h
      rfl
    · obtain ⟨outcome, -, h⟩ := Checked.bind_eq_ok.mp h
      cases h
      rfl

/-- Whether a step, resolved by itself, hits a breakpoint. -/
def LoadedTrace.isHit (l : LoadedTrace) (r : Resolver) (c : Compilation) (b : Breakpoint)
    (step : Nat) : Bool :=
  match l.resolve r step (some c) with
  | .ok ⟨_, .resolved location⟩ => b.hitBy location
  | _ => false

/-- The steps of a trace that hit a breakpoint, in ascending order. -/
def LoadedTrace.hitSteps (l : LoadedTrace) (r : Resolver) (c : Compilation) (b : Breakpoint) :
    List Nat :=
  (List.range l.length).filter (l.isHit r c b)

theorem LoadedTrace.isHit_iff {l : LoadedTrace} {r : Resolver} {c : Compilation} {b : Breakpoint}
    {step : Nat} :
    l.isHit r c b step = true ↔ ∃ location,
      l.resolve r step (some c) = .ok ⟨step, .resolved location⟩ ∧
        location.path.endsWith b.file = true ∧ location.span.start.line = b.row := by
  unfold isHit
  split
  · next other location resolved =>
    obtain rfl : other = step := step_of_resolve resolved
    rw [resolved]
    simp [Breakpoint.hitBy, Breakpoint.matchesPath, Span.startsOn]
  · next unresolved =>
    constructor
    · intro h
      cases h
    · rintro ⟨location, resolved, -⟩
      exact absurd resolved (unresolved step location)

theorem LoadedTrace.mem_hitSteps {l : LoadedTrace} {r : Resolver} {c : Compilation}
    {b : Breakpoint} {step : Nat} :
    step ∈ l.hitSteps r c b ↔ step < l.length ∧ ∃ location,
      l.resolve r step (some c) = .ok ⟨step, .resolved location⟩ ∧
        location.path.endsWith b.file = true ∧ location.span.start.line = b.row := by
  rw [hitSteps, List.mem_filter, List.mem_range, isHit_iff]

theorem LoadedTrace.hitSteps_ascending (l : LoadedTrace) (r : Resolver) (c : Compilation)
    (b : Breakpoint) : (l.hitSteps r c b).Pairwise (· < ·) :=
  List.pairwise_lt_range.filter _

end TraceDebug

import TraceDebug.Breakpoint.Engine
import TraceDebug.Proofs.Breakpoint.HitIndex
import TraceDebug.Proofs.Breakpoint.NextHit

/-!
# The hits of an engine

Whatever happens to an engine, it holds no hits at all or those of one trace and one
compilation for all of its breakpoints. A result is taken up at the revision of its
request only, and as long as the revision stays the request is for all breakpoints.
-/

namespace TraceDebug

namespace BreakpointEngine

/-- The engine after the result of an index run, if there is one to take up. -/
def takeUp (e : BreakpointEngine) : Option IndexResult → BreakpointEngine
  | some result => (e.apply result).1
  | none => e

/-- A result is taken up at its revision only, and changes no more than the hits. -/
theorem takeUp_cases (e : BreakpointEngine) (pending : Option IndexResult) :
    (e.takeUp pending = e ∧ ∀ result, pending = some result → result.revision ≠ e.revision) ∨
    ∃ result, pending = some result ∧ result.revision = e.revision ∧
      e.takeUp pending =
        { e with entries := e.entries.mapValues fun b hits => (resultHits result b).or hits } := by
  cases pending with
  | none => exact .inl ⟨rfl, fun _ eq => nomatch eq⟩
  | some result =>
    simp only [takeUp, apply]
    split
    · next same => exact .inr ⟨result, rfl, same, rfl⟩
    · next other =>
      refine .inl ⟨rfl, ?_⟩
      intro taken eq
      cases eq
      exact other

theorem exists_takeUp_eq (e : BreakpointEngine) (pending : Option IndexResult) :
    ∃ entries, e.takeUp pending = { e with entries } ∧ entries.keys = e.entries.keys := by
  rcases e.takeUp_cases pending with ⟨same, -⟩ | ⟨result, -, -, taken⟩
  · exact ⟨e.entries, same, rfl⟩
  · exact ⟨_, taken, Table.keys_mapValues _ _⟩

@[simp] theorem artifact_takeUp (e : BreakpointEngine) (pending : Option IndexResult) :
    (e.takeUp pending).artifact = e.artifact := by
  obtain ⟨entries, eq, -⟩ := e.exists_takeUp_eq pending
  rw [eq]

@[simp] theorem resolver_takeUp (e : BreakpointEngine) (pending : Option IndexResult) :
    (e.takeUp pending).resolver = e.resolver := by
  obtain ⟨entries, eq, -⟩ := e.exists_takeUp_eq pending
  rw [eq]

@[simp] theorem revision_takeUp (e : BreakpointEngine) (pending : Option IndexResult) :
    (e.takeUp pending).revision = e.revision := by
  obtain ⟨entries, eq, -⟩ := e.exists_takeUp_eq pending
  rw [eq]

@[simp] theorem breakpoints_takeUp (e : BreakpointEngine) (pending : Option IndexResult) :
    (e.takeUp pending).breakpoints = e.breakpoints := by
  obtain ⟨entries, eq, keys⟩ := e.exists_takeUp_eq pending
  rw [eq]
  exact keys

variable {e : BreakpointEngine}

/-- An engine is left alone, takes up a result, or forgets all hits. -/
inductive Change (e : BreakpointEngine) (pending : Option IndexResult) :
    BreakpointEngine → Prop where
  | same : Change e pending e
  | takeUp : Change e pending (e.takeUp pending)
  | invalidate (entries : Table Breakpoint (Option (List Nat))) (artifact : Option Compilation) :
      Change e pending (invalidate { e with entries, artifact })

theorem change_add (e : BreakpointEngine) (b : Breakpoint) : e.Change none (e.add b).1 := by
  unfold add
  split
  · exact .same
  · exact .invalidate _ e.artifact

theorem change_remove (e : BreakpointEngine) (b : Breakpoint) : e.Change none (e.remove b).1 := by
  unfold remove
  split
  · exact .invalidate _ e.artifact
  · exact .same

theorem breakpoints_invalidate (e : BreakpointEngine) : e.invalidate.breakpoints = e.breakpoints :=
  Table.keys_mapValues _ _

/-- Adding that leaves the set as it is leaves the engine as it is. -/
theorem add_eq_self {b : Breakpoint} (kept : (e.add b).1.breakpoints = e.breakpoints) :
    (e.add b).1 = e := by
  unfold add at kept ⊢
  split at kept
  · next known => rw [if_pos known]
  · next new =>
    rw [breakpoints_invalidate] at kept
    have same : (e.entries.insert b none).keys = e.entries.keys := kept
    have known := e.entries.contains_insert_self b none
    rw [Table.contains_congr same] at known
    exact absurd known new

theorem remove_eq_self {b : Breakpoint} (kept : (e.remove b).1.breakpoints = e.breakpoints) :
    (e.remove b).1 = e := by
  unfold remove at kept ⊢
  split at kept
  · next known =>
    rw [breakpoints_invalidate] at kept
    have same : (e.entries.erase b).keys = e.entries.keys := kept
    have unknown := e.entries.contains_erase_self b
    rw [Table.contains_congr same] at unknown
    cases known.symm.trans unknown
  · next unknown => rw [if_neg unknown]

/-- No breakpoint holds hits, or each holds its hits in the loaded trace. -/
inductive Sound (e : BreakpointEngine) (loaded : Option LoadedTrace) : Prop where
  | unindexed (all : ∀ entry ∈ e.entries.entries, entry.2 = none)
  | indexed {l : LoadedTrace} {c : Compilation} (trace : loaded = some l)
      (artifact : e.artifact = some c)
      (all : ∀ entry ∈ e.entries.entries, entry.2 = some (l.hitSteps e.resolver c entry.1))

theorem sound_invalidate (e : BreakpointEngine) (loaded : Option LoadedTrace) :
    e.invalidate.Sound loaded := by
  apply Sound.unindexed
  intro entry mem
  obtain ⟨old, -, rfl⟩ := List.mem_map.mp mem
  rfl

end BreakpointEngine

/-- A request is not of a later revision than an engine, and one of its revision asks
for all of its breakpoints. -/
structure IndexRequest.Matches (q : IndexRequest) (e : BreakpointEngine)
    (loaded : Option LoadedTrace) : Prop where
  revision : q.revision ≤ e.revision
  current : q.revision = e.revision → q.breakpoints = e.breakpoints ∧
    e.artifact = some q.compilation ∧ loaded = some q.loaded ∧ q.resolver = e.resolver

namespace BreakpointEngine

variable {e : BreakpointEngine} {loaded : Option LoadedTrace} {q : IndexRequest}

theorem indexRequest_eq_some {l : LoadedTrace} (asked : e.indexRequest l = some q) :
    ∃ c, e.artifact = some c ∧ e.unindexed ≠ [] ∧
      q = ⟨e.revision, e.unindexed, c, l, e.resolver, e.parallel⟩ := by
  unfold indexRequest at asked
  split at asked
  · cases asked
  · cases asked
  · next c b rest artifact unindexed =>
    refine ⟨c, artifact, ?_, ?_⟩
    · rw [unindexed]
      exact List.cons_ne_nil b rest
    · rw [unindexed]
      exact (Option.some.inj asked).symm

theorem unindexed_eq_breakpoints (all : ∀ entry ∈ e.entries.entries, entry.2 = none) :
    e.unindexed = e.breakpoints := by
  have kept : e.entries.entries.filter (·.2.isNone) = e.entries.entries :=
    List.filter_eq_self.mpr fun entry mem => by rw [all entry mem]; rfl
  rw [unindexed, kept]
  rfl

theorem unindexed_eq_nil (all : ∀ entry ∈ e.entries.entries, ∃ hits, entry.2 = some hits) :
    e.unindexed = [] := by
  have dropped : e.entries.entries.filter (·.2.isNone) = [] := by
    apply List.filter_eq_nil_iff.mpr
    intro entry mem
    obtain ⟨hits, eq⟩ := all entry mem
    simp [eq]
  rw [unindexed, dropped]
  rfl

theorem breakpoints_ne_nil (left : e.unindexed ≠ []) : e.breakpoints ≠ [] := by
  intro none
  have empty : e.entries.entries = [] := List.map_eq_nil_iff.mp none
  exact left (by rw [unindexed, empty]; rfl)

theorem Sound.matches_indexRequest {l : LoadedTrace} (h : e.Sound (some l))
    (asked : e.indexRequest l = some q) : q.Matches e (some l) := by
  obtain ⟨c, artifact, some, rfl⟩ := indexRequest_eq_some asked
  refine ⟨Nat.le_refl _, fun _ => ⟨?_, artifact, rfl, rfl⟩⟩
  cases h with
  | unindexed all => exact unindexed_eq_breakpoints all
  | indexed _ _ all => exact absurd (unindexed_eq_nil fun entry mem => ⟨_, all entry mem⟩) some

theorem matches_invalidate (h : q.Matches e loaded)
    (entries : Table Breakpoint (Option (List Nat))) (artifact : Option Compilation)
    (loaded' : Option LoadedTrace) : q.Matches (invalidate { e with entries, artifact }) loaded' where
  revision := Nat.le_succ_of_le h.revision
  current eq := by
    have older := h.revision
    simp only [invalidate] at eq
    omega

theorem matches_takeUp (h : q.Matches e loaded) (pending : Option IndexResult) :
    q.Matches (e.takeUp pending) loaded where
  revision := by
    rw [revision_takeUp]
    exact h.revision
  current eq := by
    rw [revision_takeUp] at eq
    rw [breakpoints_takeUp, artifact_takeUp, resolver_takeUp]
    exact h.current eq

/-- A result with an entry for every breakpoint is looked up entry by entry. -/
theorem resultHits_of_mem {entry : Breakpoint × Option (List Nat)}
    (mem : entry ∈ e.entries.entries) (revision : Nat) (f : Breakpoint → List Nat) :
    resultHits ⟨revision, e.breakpoints.map fun b => (b, f b)⟩ entry.1 = some (f entry.1) := by
  have listed : (e.breakpoints.map fun b => (b, f b)) =
      (e.entries.mapValues fun b _ => f b).entries := by
    simp [breakpoints, Table.keys, Table.mapValues]
  have known : (entry.1, f entry.1) ∈ (e.entries.mapValues fun b _ => f b).entries :=
    List.mem_map_of_mem mem
  have found := Table.get?_of_mem known
  rw [Table.get?, ← listed] at found
  exact found

/-- A result of the revision of now gives every breakpoint its hits. -/
theorem held_takeUp (asked : q.Matches e loaded) {result : IndexResult} (ran : q.run = .ok result)
    (revision : q.revision = e.revision) :
    ∀ entry ∈ (e.takeUp (some result)).entries.entries,
      entry.2 = some (q.loaded.hitSteps q.resolver q.compilation entry.1) := by
  have found := IndexRequest.run_eq_ok ran
  rcases e.takeUp_cases (some result) with ⟨-, other⟩ | ⟨taken, eq, -, changed⟩
  · exact absurd (by rw [found, revision]) (other result rfl)
  · intro entry mem
    rw [changed] at mem
    obtain ⟨old, known, rfl⟩ := List.mem_map.mp mem
    rw [← Option.some.inj eq, found]
    dsimp only
    rw [(asked.current revision).1, resultHits_of_mem known]
    rfl

theorem takeUp_eq_self {result : IndexResult} (ran : q.run = .ok result)
    (outdated : q.revision ≠ e.revision) : e.takeUp (some result) = e := by
  rcases e.takeUp_cases (some result) with ⟨same, -⟩ | ⟨taken, eq, current, -⟩
  · exact same
  · obtain rfl := IndexRequest.run_eq_ok ran
    cases eq
    exact absurd current outdated

/-- Taking up the result of a request keeps an engine sound. -/
theorem Sound.takeUp (h : e.Sound loaded) (asked : q.Matches e loaded) {result : IndexResult}
    (ran : q.run = .ok result) : (e.takeUp (some result)).Sound loaded := by
  by_cases revision : q.revision = e.revision
  · obtain ⟨-, artifact, trace, resolver⟩ := asked.current revision
    refine .indexed trace (by rw [artifact_takeUp, artifact]) ?_
    rw [resolver_takeUp, ← resolver]
    exact held_takeUp asked ran revision
  · rw [takeUp_eq_self ran revision]
    exact h

theorem indexRequest_eq_none_iff {l : LoadedTrace} :
    e.indexRequest l = none ↔ e.artifact = none ∨ e.unindexed = [] := by
  unfold indexRequest
  split
  · next artifact => simp [artifact]
  · next unindexed => simp [unindexed]
  · next artifact unindexed => simp [artifact, unindexed]

/-- After a result was offered all breakpoints are indexed if they were before, or if
the result is of the revision of now. -/
theorem unindexed_takeUp_iff (asked : q.Matches e loaded) {result : IndexResult}
    (ran : q.run = .ok result) :
    (e.takeUp (some result)).unindexed = [] ↔ q.revision = e.revision ∨ e.unindexed = [] := by
  by_cases revision : q.revision = e.revision
  · have complete := unindexed_eq_nil fun entry mem => ⟨_, held_takeUp asked ran revision entry mem⟩
    simp [complete, revision]
  · rw [takeUp_eq_self ran revision]
    simp [revision]

theorem Sound.ascending (h : e.Sound loaded) : ∀ entry ∈ e.entries.entries, ∀ hits,
    entry.2 = some hits → hits.Pairwise (· < ·) := by
  intro entry mem hits held
  cases h with
  | unindexed all => cases held.symm.trans (all entry mem)
  | @indexed l c _ _ all =>
    obtain rfl := Option.some.inj (held.symm.trans (all entry mem))
    exact l.hitSteps_ascending _ _ _

theorem mem_breakpoints_iff {b : Breakpoint} :
    b ∈ e.breakpoints ↔ ∃ entry ∈ e.entries.entries, entry.1 = b := by
  simp only [breakpoints, Table.keys, List.mem_map]

/-- Hits that are there stay when a result is taken up. -/
theorem Sound.mem_takeUp (h : e.Sound loaded) (asked : q.Matches e loaded) {result : IndexResult}
    (ran : q.run = .ok result) {b : Breakpoint} {hits : List Nat}
    (mem : (b, some hits) ∈ e.entries.entries) :
    (b, some hits) ∈ (e.takeUp (some result)).entries.entries := by
  by_cases revision : q.revision = e.revision
  · cases h with
    | unindexed all => cases all _ mem
    | indexed trace artifact all =>
      obtain ⟨-, active, present, resolver⟩ := asked.current revision
      cases present.symm.trans trace
      cases active.symm.trans artifact
      have known : b ∈ (e.takeUp (some result)).breakpoints := by
        rw [breakpoints_takeUp]
        exact mem_breakpoints_iff.mpr ⟨_, mem, rfl⟩
      obtain ⟨entry, found, rfl⟩ := mem_breakpoints_iff.mp known
      have held : entry.2 = some hits := by
        rw [held_takeUp asked ran revision entry found, resolver]
        exact (all _ mem).symm
      rw [← held]
      exact found
  · rw [takeUp_eq_self ran revision]
    exact mem

/-- Nothing is left to index and there is a next hit just when the engine has a
compilation, all breakpoints are indexed and one has a hit beyond the cursor. -/
theorem Sound.nextHit_iff {l : LoadedTrace} (h : e.Sound (some l)) (current : Nat)
    (direction : Direction) (step : Nat) :
    e.indexRequest l = none ∧ e.nextHit current direction = some step ↔
      ∃ c, e.artifact = some c ∧ e.unindexed = [] ∧ direction.IsNearest current
        {hit | ∃ b ∈ e.breakpoints, hit ∈ l.hitSteps e.resolver c b} step := by
  have ascending : ∀ entry ∈ e.entries.entries, ∀ hits, entry.2 = some hits →
      hits.Pairwise (· ≤ ·) := fun entry mem hits held =>
    (h.ascending entry mem hits held).imp Nat.le_of_lt
  rw [nextHit_eq_some_iff ascending, indexRequest_eq_none_iff]
  cases h with
  | unindexed all =>
    constructor
    · rintro ⟨-, nearest⟩
      obtain ⟨entry, mem, hits, eq, -⟩ := nearest.mem
      cases eq.symm.trans (all entry mem)
    · rintro ⟨c, -, complete, nearest⟩
      obtain ⟨b, known, -⟩ := nearest.mem
      rw [← unindexed_eq_breakpoints all, complete] at known
      cases known
  | @indexed l' c trace artifact all =>
    cases trace
    have held : e.indexedHits = {hit | ∃ b ∈ e.breakpoints, hit ∈ l.hitSteps e.resolver c b} := by
      ext step
      constructor
      · rintro ⟨entry, mem, hits, eq, inside⟩
        obtain rfl := Option.some.inj (eq.symm.trans (all entry mem))
        exact ⟨entry.1, mem_breakpoints_iff.mpr ⟨entry, mem, rfl⟩, inside⟩
      · rintro ⟨b, known, inside⟩
        obtain ⟨entry, mem, rfl⟩ := mem_breakpoints_iff.mp known
        exact ⟨entry, mem, _, all entry mem, inside⟩
    have complete := unindexed_eq_nil fun entry mem => ⟨_, all entry mem⟩
    rw [held]
    constructor
    · rintro ⟨-, nearest⟩
      exact ⟨c, artifact, complete, nearest⟩
    · rintro ⟨c', artifact', -, nearest⟩
      cases artifact.symm.trans artifact'
      exact ⟨.inr complete, nearest⟩

end BreakpointEngine

end TraceDebug

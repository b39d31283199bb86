import TraceDebug.Proofs.Breakpoint.SharedRun
import TraceDebug.Proofs.Source.Answers

/-!
# Index runs end

On a loaded trace an index run ends, and what it finds is what resolving the steps one by
one finds, whether the steps are located side by side or not and in whatever order the
hits of the steps are put together.
-/

namespace TraceDebug

namespace IndexRequest

variable {q : IndexRequest}

theorem hitsAt_eq (indexed : q.loaded.Indexed) (answers : q.resolver.converter.Answers)
    (fits : q.resolver.reader.Fits) (step : Nat) :
    q.hitsAt q.prepareMaps step = .ok (q.hitPairs step) := by
  obtain ⟨found, resolved⟩ :=
    LoadedTrace.exists_resolve indexed answers fits step (some q.compilation)
  have located : q.locationOf q.prepareMaps step = .ok found.outcome.location? := by
    rw [locationOf_prepareMaps]
    exact Checked.map_eq_ok.mpr ⟨found, resolved, rfl⟩
  have ended : ∃ pairs, q.hitsAt q.prepareMaps step = .ok pairs := by
    unfold hitsAt
    rw [located]
    cases found.outcome.location? <;> exact ⟨_, rfl⟩
  obtain ⟨pairs, ended⟩ := ended
  rw [ended, hitsAt_eq_ok ended]

theorem collect_eq (indexed : q.loaded.Indexed) (answers : q.resolver.converter.Answers)
    (fits : q.resolver.reader.Fits) (steps : List Nat) :
    q.collect q.prepareMaps steps = .ok (steps.flatMap q.hitPairs) := by
  have each : q.hitsAt q.prepareMaps = fun step => pure (q.hitPairs step) :=
    funext (hitsAt_eq indexed answers fits)
  rw [collect, each, List.mapM_pure]
  rfl

theorem exists_collectParallel (indexed : q.loaded.Indexed)
    (answers : q.resolver.converter.Answers) (fits : q.resolver.reader.Fits) (steps : List Nat) :
    ∃ pairs, q.collectParallel q.prepareMaps steps = .ok pairs := by
  have each : q.collect q.prepareMaps = fun chunk => pure (chunk.flatMap q.hitPairs) :=
    funext (collect_eq indexed answers fits)
  rw [collectParallel_eq, each, List.mapM_pure]
  exact ⟨_, rfl⟩

theorem run_eq (indexed : q.loaded.Indexed) (answers : q.resolver.converter.Answers)
    (fits : q.resolver.reader.Fits) :
    q.run = .ok ⟨q.revision, q.breakpoints.map fun b =>
      (b, q.loaded.hitSteps q.resolver q.compilation b)⟩ := by
  have ended : ∃ result, q.run = .ok result := by
    unfold run runWith
    by_cases side : q.parallel = true
    · obtain ⟨pairs, collected⟩ :=
        exists_collectParallel indexed answers fits (List.range q.loaded.length)
      simp only [side, if_true, collected]
      exact ⟨_, rfl⟩
    · simp only [side, collect_eq indexed answers fits]
      exact ⟨_, rfl⟩
  obtain ⟨result, ended⟩ := ended
  rw [ended, run_eq_ok ended]

/-- The order of the pairs does not show behind the sorting. -/
theorem stepsOf_of_perm {pairs collected : List (Nat × Nat)} (shuffled : collected.Perm pairs)
    (number : Nat) : stepsOf collected number = stepsOf pairs number := by
  have sorted (l : List Nat) : l.mergeSort.Pairwise (· ≤ ·) := by
    have trans : ∀ a b c : Nat, decide (a ≤ b) = true → decide (b ≤ c) = true →
        decide (a ≤ c) = true := by
      simp only [decide_eq_true_eq]
      omega
    have total : ∀ a b : Nat, (decide (a ≤ b) || decide (b ≤ a)) = true := by
      simp only [Bool.or_eq_true, decide_eq_true_eq]
      omega
    simpa only [decide_eq_true_eq] using List.pairwise_mergeSort trans total l
  unfold stepsOf
  apply List.Perm.eq_of_pairwise (fun _ _ _ _ => Nat.le_antisymm) (sorted _) (sorted _)
  apply (List.mergeSort_perm _ _).trans
  apply (shuffled.filterMap _).trans
  exact (List.mergeSort_perm _ _).symm

theorem distribute_of_perm {pairs collected : List (Nat × Nat)}
    (shuffled : collected.Perm pairs) : q.distribute collected = q.distribute pairs := by
  unfold distribute
  simp only [stepsOf_of_perm shuffled]

/-- An index run finds what resolving the steps one by one finds. -/
structure Indexes (q : IndexRequest) (result : IndexResult) : Prop where
  requested : result.hits.map Prod.fst = q.breakpoints
  ascending : ∀ b steps, (b, steps) ∈ result.hits → steps.Pairwise (· < ·)
  hits : ∀ b steps, (b, steps) ∈ result.hits → ∀ step, step ∈ steps ↔
    step < q.loaded.length ∧ ∃ location,
      q.loaded.resolve q.resolver step (some q.compilation) = .ok ⟨step, .resolved location⟩ ∧
        b.matchesPath location.path = true ∧ location.span.start.line = b.row
  /-- Resolving with a cache of source maps finds the same, whatever it was used for before. -/
  shared : ∀ (compilations : Nat → Compilation) (sections : List MapCache.Section) (build : Nat),
    compilations build = q.compilation → ∀ step,
      (q.loaded.resolveShared q.resolver
        (MapCache.Service.start.run q.resolver.reader q.loaded compilations sections).cache step
        (some (MapCache.buildOf compilations build))).map Prod.snd =
          q.loaded.resolve q.resolver step (some q.compilation)
  /-- So does a run that gets its source maps through the cache, among other users of it. -/
  sharedRun : ∀ (compilations : Nat → Compilation) (sections : List MapCache.Section) (build : Nat)
    (others : CallFrame → Meanwhile), compilations build = q.compilation →
      q.runShared compilations build others (MapCache.Service.start.run q.resolver.reader q.loaded
        compilations sections) = .ok result
  malformed : ∀ m, q.loaded.frames.malformedAt = some m → ∀ b steps, (b, steps) ∈ result.hits →
    ∀ step ∈ steps, step < m
  sideBySide : ∀ parallel, { q with parallel }.run = .ok result
  /-- The steps may be visited, and their hits put together, in any order. -/
  anyOrder : ∀ order : List Nat, order.Perm (List.range q.loaded.length) →
    ∃ pairs, q.collect q.prepareMaps order = .ok pairs ∧
      ∀ collected, collected.Perm pairs → q.distribute collected = result

/-- An index run over a loaded trace ends and finds all hits of all requested breakpoints. -/
theorem exists_run_indexes (q : IndexRequest) (indexed : q.loaded.Indexed)
    (answers : q.resolver.converter.Answers) (fits : q.resolver.reader.Fits) :
    ∃ result, q.run = .ok result ∧ q.Indexes result := by
  have entry {b : Breakpoint} {steps : List Nat} (mem : (b, steps) ∈ q.breakpoints.map fun b =>
      (b, q.loaded.hitSteps q.resolver q.compilation b)) :
      steps = q.loaded.hitSteps q.resolver q.compilation b := by
    obtain ⟨requested, -, same⟩ := List.mem_map.mp mem
    cases same
    rfl
  refine ⟨_, run_eq indexed answers fits, ?_⟩
  exact {
    requested := by
      rw [List.map_map]
      exact List.map_id _
    ascending := by
      intro b steps mem
      rw [entry mem]
      exact LoadedTrace.hitSteps_ascending _ _ _ _
    hits := by
      intro b steps mem step
      rw [entry mem]
      exact LoadedTrace.mem_hitSteps
    shared := by
      intro compilations sections build named step
      have faithful :=
        (MapCache.Service.sound_run q.resolver.reader q.loaded compilations sections).cache
      have same := faithful.resolveShared q.resolver.converter step (some build)
      rw [Option.map_some, Option.map_some, named] at same
      exact same
    sharedRun := by
      intro compilations sections build others named
      have sound := MapCache.Service.sound_run q.resolver.reader q.loaded compilations sections
      rw [runShared_eq sound named]
      exact run_eq indexed answers fits
    malformed := by
      intro m malformed b steps mem step hit
      rw [entry mem] at hit
      obtain ⟨-, location, resolved, -⟩ := LoadedTrace.mem_hitSteps.mp hit
      exact (LoadedTrace.replayed_of_resolve resolved).2 m malformed
    sideBySide := fun _ => run_eq indexed answers fits
    anyOrder := by
      intro order visited
      refine ⟨_, collect_eq indexed answers fits order, ?_⟩
      intro collected shuffled
      rw [distribute_of_perm (shuffled.trans (visited.flatMap_right q.hitPairs))]
      exact q.distribute_hitPairs }

def reentrantCode : Bytes := [Opcode.jumpdest, 0x60, 0, Opcode.jumpdest]

/-- A contract that calls itself, and then a step that is too deep. -/
def reentrantTrace : Trace where
  steps := [⟨0, Opcode.jumpdest, 0, none⟩, ⟨1, Opcode.call, 0, some Activity.rowAddress⟩,
    ⟨0, Opcode.jumpdest, 1, none⟩, ⟨3, Opcode.jumpdest, 0, none⟩, ⟨1, Opcode.jumpdest, 5, none⟩]
  root := .contract Activity.rowAddress
  bytecodes := .ofList [(.contract Activity.rowAddress, reentrantCode)]

def reentrantLoaded : LoadedTrace where
  transaction := Activity.rowTransaction
  trace := reentrantTrace
  frames := ⟨[⟨⟨0⟩, none, 0, .contract Activity.rowAddress, 0, none⟩,
      ⟨⟨1⟩, some ⟨0⟩, 1, .contract Activity.rowAddress, 2, some 3⟩],
    [⟨3, ⟨0⟩⟩, ⟨2, ⟨1⟩⟩, ⟨0, ⟨0⟩⟩], 5, some ⟨4, .depthJump 0 5⟩⟩

def reentrantRequest : IndexRequest where
  revision := 7
  breakpoints := [⟨⟨"Loop.sol"⟩, 0⟩, ⟨⟨"src/Loop.sol"⟩, 1⟩, ⟨⟨"Loop.sol"⟩, 2⟩]
  compilation := (Compilation.empty.withContract "Loop"
    ⟨⟨"Loop.sol"⟩, [], "", reentrantCode, "0:2:0;3;0"⟩).withSource 0
      ⟨⟨"src/Loop.sol"⟩, "ab\ncd\n"⟩
  loaded := reentrantLoaded
  resolver := ⟨lineBreakConverter, compressedReader⟩
  parallel := true

theorem reentrantRequest_indexes :
    reentrantLoaded.Indexed ∧ lineBreakConverter.Answers ∧ compressedReader.Fits ∧
      ∃ result, reentrantRequest.run = .ok result ∧ reentrantRequest.Indexes result ∧
        reentrantLoaded.frames.malformedAt = some 4 ∧
        result.hits.map Prod.snd = [[0, 2, 3], [1], []] := by
  have indexed : reentrantLoaded.Indexed := ⟨Activity.rowTransaction, reentrantTrace, rfl⟩
  obtain ⟨result, ran, indexes⟩ :=
    exists_run_indexes reentrantRequest indexed lineBreakConverter_answers compressedReader_fits
  refine ⟨indexed, lineBreakConverter_answers, compressedReader_fits, result, ran, indexes, rfl, ?_⟩
  rw [run_eq_ok ran]
  decide +kernel

end IndexRequest

end TraceDebug

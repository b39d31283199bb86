import TraceDebug.Proofs.LoadedTrace
import TraceDebug.Proofs.Table

/-!
# What an index run finds

An index run prepares the source maps of all frame addresses, locates every step
once and collects the hits of all breakpoints together, perhaps in chunks side by
side. It finds for every breakpoint the steps that hit it when each step is
resolved by itself.
-/

namespace TraceDebug

namespace IndexRequest

variable {q : IndexRequest}

def mapOf (q : IndexRequest) (address : ExecutingAddress) : Option ContractSourceMap :=
  (q.resolver.reader.prepare address q.loaded.trace (some q.compilation)).toOption

def prepareNext (q : IndexRequest) (maps : Maps) (frame : CallFrame) : Maps :=
  if maps.contains frame.address then maps
  else maps.insert frame.address (q.mapOf frame.address)

/-- The maps of the addresses of some frames, each as if prepared by itself. -/
structure Prepared (q : IndexRequest) (frames : List CallFrame) (maps : Maps) : Prop where
  right : ∀ e ∈ maps.entries, e.2 = q.mapOf e.1
  all : ∀ f ∈ frames, ∃ e ∈ maps.entries, e.1 = f.address

theorem Prepared.next {frames : List CallFrame} {maps : Maps} (h : Prepared q frames maps)
    (frame : CallFrame) : Prepared q (frames ++ [frame]) (q.prepareNext maps frame) := by
  unfold prepareNext
  split
  · next known =>
    refine ⟨h.right, ?_⟩
    intro f mem
    rcases List.mem_append.mp mem with mem | mem
    · exact h.all f mem
    · rw [List.mem_singleton.mp mem]
      exact Table.contains_iff.mp known
  · refine ⟨?_, ?_⟩
    · intro e mem
      rcases Table.mem_insertEntry mem with rfl | mem
      · rfl
      · exact h.right e mem
    · intro f mem
      rcases List.mem_append.mp mem with mem | mem
      · obtain ⟨e, known, eq⟩ := h.all f mem
        obtain ⟨d, kept, same⟩ := Table.exists_key_insertEntry known
        exact ⟨d, kept, same.trans eq⟩
      · rw [List.mem_singleton.mp mem]
        exact ⟨_, Table.entry_mem_insertEntry _ _ _, rfl⟩

theorem Prepared.foldl {frames done : List CallFrame} {maps : Maps} (h : Prepared q done maps) :
    Prepared q (done ++ frames) (frames.foldl q.prepareNext maps) := by
  induction frames generalizing done maps with
  | nil => simpa using h
  | cons frame frames ih => simpa using ih (h.next frame)

theorem prepared_prepareMaps (q : IndexRequest) :
    Prepared q q.loaded.frames.frames q.prepareMaps := by
  have first : Prepared q [] (.empty : Maps) := ⟨by simp, by simp⟩
  exact first.foldl

theorem get?_prepareMaps {frame : CallFrame} (mem : frame ∈ q.loaded.frames.frames) :
    q.prepareMaps.get? frame.address = some (q.mapOf frame.address) := by
  obtain ⟨e, known, eq⟩ := q.prepared_prepareMaps.all frame mem
  rw [← eq, ← q.prepared_prepareMaps.right e known]
  exact Table.get?_of_mem known

theorem mem_of_frameAt {ix : FrameIndex} {step : Nat} {f : CallFrame}
    (h : ix.frameAt step = .ok (.ok f)) : f ∈ ix.frames := by
  unfold FrameIndex.frameAt FrameIndex.owner at h
  split at h
  · cases h
  · split at h
    · cases h
    · split at h
      · obtain ⟨g, owned, same⟩ := Checked.map_eq_ok.mp h
        cases same
        exact List.mem_of_getElem? (Checked.get_eq_ok.mp owned)
      · cases h

/-- Whoever runs a step runs in one of the frames. -/
theorem exists_frame_of_addressAt {ix : FrameIndex} {step : Nat} {address : ExecutingAddress}
    (h : ix.addressAt step = .ok (.ok address)) : ∃ f ∈ ix.frames, f.address = address := by
  obtain ⟨answer, framed, same⟩ := Checked.map_eq_ok.mp h
  cases answer with
  | error cause => cases same
  | ok f =>
    cases same
    exact ⟨f, mem_of_frameAt framed, rfl⟩

/-- With the prepared maps a step is located as by itself. -/
theorem locationOf_prepareMaps (q : IndexRequest) (step : Nat) :
    q.locationOf q.prepareMaps step =
      (q.loaded.resolve q.resolver step (some q.compilation)).map (·.outcome.location?) := by
  unfold locationOf LoadedTrace.resolve Resolver.resolveStep LoadedTrace.step?
  cases found : q.loaded.frames.addressAt step with
  | error fault => rfl
  | ok answer =>
    cases answer with
    | error cause => rfl
    | ok address =>
      obtain ⟨frame, mem, rfl⟩ := exists_frame_of_addressAt found
      cases executed : q.loaded.trace.step? step with
      | none => rfl
      | some s =>
        simp only [bind, Except.bind, get?_prepareMaps mem, Option.join_some, mapOf,
          Resolver.resolve]
        cases prepared : q.resolver.reader.prepare frame.address q.loaded.trace
            (some q.compilation) with
        | error reason => rfl
        | ok map =>
          cases located : q.resolver.locate map s.pc q.compilation <;>
            simp [located, Except.toOption, Except.map, pure, Except.pure]

/-- The numbers of the breakpoints that a step hits, each with the step. -/
def hitPairs (q : IndexRequest) (step : Nat) : List (Nat × Nat) :=
  q.breakpoints.zipIdx.filterMap fun (b, number) =>
    if q.loaded.isHit q.resolver q.compilation b step then some (number, step) else none

theorem hitsAt_eq_ok {step : Nat} {pairs : List (Nat × Nat)}
    (h : q.hitsAt q.prepareMaps step = .ok pairs) : pairs = q.hitPairs step := by
  unfold hitsAt at h
  rw [locationOf_prepareMaps] at h
  obtain ⟨found, located, h⟩ := Checked.bind_eq_ok.mp h
  obtain ⟨⟨at', outcome⟩, resolved, rfl⟩ := Checked.map_eq_ok.mp located
  cases outcome with
  | unresolved reason =>
    cases h
    simp [hitPairs, LoadedTrace.isHit, resolved]
  | resolved location =>
    cases h
    simp [hitPairs, LoadedTrace.isHit, resolved]

theorem mapM_eq_ok {α β : Type} {f : α → Checked β} {g : α → β}
    (right : ∀ a b, f a = .ok b → b = g a) {l : List α} {results : List β}
    (h : l.mapM f = .ok results) : results = l.map g := by
  induction l generalizing results with
  | nil =>
    cases h
    rfl
  | cons a rest ih =>
    rw [List.mapM_cons] at h
    obtain ⟨b, first, h⟩ := Checked.bind_eq_ok.mp h
    obtain ⟨bs, others, h⟩ := Checked.bind_eq_ok.mp h
    cases h
    rw [right a b first, ih others, List.map_cons]

theorem collect_eq_ok {steps : List Nat} {pairs : List (Nat × Nat)}
    (h : q.collect q.prepareMaps steps = .ok pairs) : pairs = steps.flatMap q.hitPairs := by
  obtain ⟨results, mapped, h⟩ := Checked.bind_eq_ok.mp h
  cases h
  rw [mapM_eq_ok (fun _ _ => hitsAt_eq_ok) mapped, List.flatMap]

theorem flatten_chunks (l : List Nat) : (chunks l).flatten = l := by
  induction l using chunks.induct with
  | case1 => simp [chunks]
  | case2 a rest ih => rw [chunks, List.flatten_cons, ih, List.take_append_drop]

/-- A task that is waited for gives what its work gives. -/
theorem collectParallel_eq (q : IndexRequest) (maps : Maps) (steps : List Nat) :
    q.collectParallel maps steps =
      ((chunks steps).mapM (q.collect maps)).map List.flatten := by
  have get : Task.get ∘ (fun chunk => Task.spawn fun _ => q.collect maps chunk) =
      q.collect maps := rfl
  simp only [collectParallel, List.mapM_map, get]
  cases (chunks steps).mapM (q.collect maps) <;> rfl

theorem collectParallel_eq_ok {steps : List Nat} {pairs : List (Nat × Nat)}
    (h : q.collectParallel q.prepareMaps steps = .ok pairs) :
    pairs = steps.flatMap q.hitPairs := by
  rw [collectParallel_eq] at h
  obtain ⟨results, mapped, rfl⟩ := Checked.map_eq_ok.mp h
  rw [mapM_eq_ok (fun _ _ => collect_eq_ok) mapped]
  calc ((chunks steps).map (List.flatMap q.hitPairs)).flatten
      = (chunks steps).flatten.flatMap q.hitPairs := by
        rw [List.flatMap, List.map_flatten, List.flatten_flatten, List.map_map]
        rfl
    _ = steps.flatMap q.hitPairs := by rw [flatten_chunks]

/-- The entry of an element under its own number is the only one of that number. -/
theorem filterMap_zipIdx {α β : Type} {l : List α} {i k : Nat} {a : α} (h : l[i]? = some a)
    (p : α → Bool) (b : β) :
    ((l.zipIdx k).filterMap fun e => if e.2 = k + i ∧ p e.1 then some b else none) =
      if p a then [b] else [] := by
  induction l generalizing i k with
  | nil => simp at h
  | cons c rest ih =>
    cases i with
    | zero =>
      obtain rfl : c = a := by simpa using h
      have later : (rest.zipIdx (k + 1)).filterMap
          (fun e => if e.2 = k ∧ p e.1 then some b else none) = [] := by
        apply List.filterMap_eq_nil_iff.mpr
        intro e mem
        have behind := (List.mem_zipIdx mem).1
        simp [show e.2 ≠ k by omega]
      rw [List.zipIdx_cons, List.filterMap_cons, Nat.add_zero, later]
      cases p c <;> simp
    | succ i =>
      have other : k ≠ k + (i + 1) := by omega
      have shifted : k + (i + 1) = k + 1 + i := by omega
      rw [List.zipIdx_cons, List.filterMap_cons]
      simp only [other, false_and, if_false]
      rw [shifted]
      exact ih (by simpa using h)

theorem filterMap_hitPairs {number : Nat} {b : Breakpoint} (h : q.breakpoints[number]? = some b)
    (step : Nat) :
    ((q.hitPairs step).filterMap fun e => if e.1 = number then some e.2 else none) =
      if q.loaded.isHit q.resolver q.compilation b step then [step] else [] := by
  rw [hitPairs, List.filterMap_filterMap,
    ← filterMap_zipIdx (k := 0) h (q.loaded.isHit q.resolver q.compilation · step) step]
  refine congrFun (congrArg List.filterMap (funext fun e => ?_)) _
  by_cases hit : q.loaded.isHit q.resolver q.compilation e.1 step = true <;> simp [hit]

theorem filterMap_flatMap_hitPairs {number : Nat} {b : Breakpoint}
    (h : q.breakpoints[number]? = some b) (steps : List Nat) :
    ((steps.flatMap q.hitPairs).filterMap fun e => if e.1 = number then some e.2 else none) =
      steps.filter (q.loaded.isHit q.resolver q.compilation b) := by
  induction steps with
  | nil => rfl
  | cons step rest ih =>
    rw [List.flatMap_cons, List.filterMap_append, filterMap_hitPairs h, ih, List.filter_cons]
    split <;> rfl

theorem stepsOf_hitPairs {steps : List Nat} (ascending : steps.Pairwise (· < ·)) {number : Nat}
    {b : Breakpoint} (h : q.breakpoints[number]? = some b) :
    stepsOf (steps.flatMap q.hitPairs) number =
      steps.filter (q.loaded.isHit q.resolver q.compilation b) := by
  have sorted : (steps.filter (q.loaded.isHit q.resolver q.compilation b)).Pairwise
      fun a b => decide (a ≤ b) = true :=
    (ascending.filter _).imp fun lt => decide_eq_true (Nat.le_of_lt lt)
  rw [← List.mergeSort_of_pairwise sorted, ← filterMap_flatMap_hitPairs h]
  rfl

theorem distribute_hitPairs (q : IndexRequest) :
    q.distribute ((List.range q.loaded.length).flatMap q.hitPairs) =
      ⟨q.revision, q.breakpoints.map fun b =>
        (b, q.loaded.hitSteps q.resolver q.compilation b)⟩ := by
  have each : q.breakpoints.zipIdx.map (fun e =>
      (e.1, stepsOf ((List.range q.loaded.length).flatMap q.hitPairs) e.2)) =
      q.breakpoints.zipIdx.map fun e =>
        (e.1, q.loaded.hitSteps q.resolver q.compilation e.1) := by
    apply List.map_congr_left
    intro e mem
    rw [stepsOf_hitPairs List.pairwise_lt_range (List.mem_zipIdx_iff_getElem?.mp mem)]
    rfl
  have named := congrArg (List.map fun b => (b, q.loaded.hitSteps q.resolver q.compilation b))
    (List.zipIdx_map_fst 0 q.breakpoints)
  rw [List.map_map] at named
  exact congrArg (IndexResult.mk q.revision) (each.trans named)

/-- An index run that ends finds for each breakpoint the steps that hit it. -/
theorem run_eq_ok {result : IndexResult} (h : q.run = .ok result) :
    result = ⟨q.revision, q.breakpoints.map fun b =>
      (b, q.loaded.hitSteps q.resolver q.compilation b)⟩ := by
  rw [← distribute_hitPairs]
  simp only [run, runWith] at h
  split at h
  · obtain ⟨pairs, collected, h⟩ := Checked.bind_eq_ok.mp h
    cases h
    rw [collectParallel_eq_ok collected]
  · obtain ⟨pairs, collected, h⟩ := Checked.bind_eq_ok.mp h
    cases h
    rw [collect_eq_ok collected]

end IndexRequest

end TraceDebug

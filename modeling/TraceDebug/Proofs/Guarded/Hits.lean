import TraceDebug.Breakpoint.Engine
import TraceDebug.Proofs.Breakpoint.IndexRun
import TraceDebug.Proofs.Guarded.Source

/-!
# Hits with every access checked

An index run files each hit into the row of its breakpoint, of which there is one for each
number it can meet. The search for the next hit reads in front of a place that is not the first.
-/

namespace TraceDebug.Guarded

open IndexRequest (Maps)

def prepareMaps (q : IndexRequest) : Checked Maps :=
  q.loaded.frames.frames.foldlM (fun maps frame => do
    if maps.contains frame.address then return maps
    let map ← prepare q.resolver.reader frame.address q.loaded.trace (some q.compilation)
    return maps.insert frame.address map.toOption) .empty

def locationOf (q : IndexRequest) (maps : Maps) (step : Nat) : Checked (Option SourceLocation) := do
  match ← addressAt q.loaded.frames step, q.loaded.step? step with
  | .ok address, some executed =>
    match (maps.get? address).join with
    | some map =>
      return (← (Resolver.mk converter q.resolver.reader).locate map executed.pc
        q.compilation).location?
    | none => return none
  | _, _ => return none

def hitsAt (q : IndexRequest) (maps : Maps) (step : Nat) : Checked (List (Nat × Nat)) := do
  match ← locationOf q maps step with
  | none => return []
  | some location =>
    return q.breakpoints.zipIdx.filterMap fun (b, number) =>
      if b.hitBy location then some (number, step) else none

/-- Put the steps into the rows of the numbers that come with them. -/
def file (rows : List (List Nat)) : List (Nat × Nat) → Checked (List (List Nat))
  | [] => .ok rows
  | (number, step) :: rest => do
    let row ← Checked.get rows number
    let rows ← Checked.set rows number (row ++ [step])
    file rows rest

def emptyRows (q : IndexRequest) : List (List Nat) := List.replicate q.breakpoints.length []

def distribute (q : IndexRequest) (pairs : List (Nat × Nat)) : Checked IndexResult := do
  let rows ← file (emptyRows q) pairs
  return ⟨q.revision, (q.breakpoints.zip rows).map fun (b, steps) => (b, steps.mergeSort)⟩

/-- Which steps are located does not depend on whether they are located side by side. -/
def run (q : IndexRequest) : Checked IndexResult := do
  let maps ← prepareMaps q
  let pairs ← (List.range q.loaded.length).mapM (hitsAt q maps)
  distribute q pairs.flatten

variable {q : IndexRequest}

theorem prepareMaps_eq (codes : q.loaded.trace.InMemory) (inMemory : q.compilation.InMemory) :
    prepareMaps q = .ok q.prepareMaps := by
  unfold prepareMaps IndexRequest.prepareMaps
  rw [show (Except.ok : Maps → Checked Maps) = pure from rfl, ← List.foldlM_pure]
  congr 1
  funext maps frame
  rw [prepare_eq codes inMemory.some]
  split <;> rfl

theorem locationOf_eq (indexed : q.loaded.Indexed) (inMemory : q.compilation.InMemory)
    (breaks : q.resolver.converter = lineBreakConverter) (maps : Maps) (step : Nat) :
    locationOf q maps step = q.locationOf maps step := by
  unfold locationOf IndexRequest.locationOf
  rw [addressAt_eq indexed]
  congr 1
  funext answer
  cases answer with
  | error cause => rfl
  | ok address =>
    cases q.loaded.step? step with
    | none => rfl
    | some executed =>
      cases known : (maps.get? address).join with
      | none => simp only [known]
      | some map => simp only [known, locate_eq inMemory, ← breaks]

theorem hitsAt_eq (indexed : q.loaded.Indexed) (inMemory : q.compilation.InMemory)
    (breaks : q.resolver.converter = lineBreakConverter) (fits : q.resolver.reader.Fits)
    (step : Nat) : hitsAt q q.prepareMaps step = .ok (q.hitPairs step) := by
  have answers : q.resolver.converter.Answers := breaks ▸ lineBreakConverter_answers
  rw [← IndexRequest.hitsAt_eq indexed answers fits, hitsAt,
    locationOf_eq indexed inMemory breaks]
  rfl

/-- The steps that come with a number. -/
def stepsWith (pairs : List (Nat × Nat)) (number : Nat) : List Nat :=
  pairs.filterMap fun (n, step) => if n = number then some step else none

/-- Filing ends if there is a row for each number, and each row gets its steps. -/
theorem exists_file {rows : List (List Nat)} {pairs : List (Nat × Nat)}
    (rowed : ∀ e ∈ pairs, e.1 < rows.length) :
    ∃ filed, file rows pairs = .ok filed ∧
      ∀ number, filed[number]? = rows[number]?.map (· ++ stepsWith pairs number) := by
  induction pairs generalizing rows with
  | nil => exact ⟨rows, rfl, fun number => by simp [stepsWith]⟩
  | cons e pairs ih =>
    obtain ⟨number, step⟩ := e
    obtain ⟨inside, rowed⟩ := List.forall_mem_cons.mp rowed
    let filedOne := rows.set number (rows[number] ++ [step])
    have read := Checked.get_eq_ok.mpr (List.getElem?_eq_getElem inside)
    have written : Checked.set rows number (rows[number] ++ [step]) = .ok filedOne := if_pos inside
    have rowed' : ∀ e ∈ pairs, e.1 < filedOne.length := by
      rw [List.length_set]
      exact rowed
    obtain ⟨filed, ended, row⟩ := ih rowed'
    refine ⟨filed, ?_, ?_⟩
    · simp only [file, read, written, bind, Except.bind]
      exact ended
    · intro other
      rw [row other]
      by_cases same : number = other
      · subst same
        rw [List.getElem?_set_self inside, List.getElem?_eq_getElem inside]
        simp [stepsWith]
      · rw [List.getElem?_set_ne same]
        simp [stepsWith, same]

theorem distribute_eq {pairs : List (Nat × Nat)}
    (rowed : ∀ e ∈ pairs, e.1 < q.breakpoints.length) :
    distribute q pairs = .ok (q.distribute pairs) := by
  have rowed' : ∀ e ∈ pairs, e.1 < (emptyRows q).length := by
    rw [emptyRows, List.length_replicate]
    exact rowed
  obtain ⟨filed, ended, row⟩ := exists_file rowed'
  have rows : filed = (List.range' 0 q.breakpoints.length).map (stepsWith pairs) := by
    apply List.ext_getElem?
    intro number
    rw [row, emptyRows, List.getElem?_replicate, List.getElem?_map]
    split <;> simp [*]
  unfold distribute IndexRequest.distribute
  subst rows
  simp only [ended, bind, Except.bind, pure, Except.pure]
  rw [List.zip_map_right, List.map_map, List.zipIdx_eq_zip_range']
  rfl

theorem lt_of_mem_hitPairs {step : Nat} {e : Nat × Nat} (mem : e ∈ q.hitPairs step) :
    e.1 < q.breakpoints.length := by
  obtain ⟨⟨b, number⟩, listed, same⟩ := List.mem_filterMap.mp mem
  have inside := (List.mem_zipIdx listed).2.1
  dsimp only at same
  split at same
  · cases same
    simpa using inside
  · cases same

theorem run_eq (indexed : q.loaded.Indexed) (codes : q.loaded.trace.InMemory)
    (inMemory : q.compilation.InMemory) (breaks : q.resolver.converter = lineBreakConverter)
    (fits : q.resolver.reader.Fits) : run q = q.run := by
  have answers : q.resolver.converter.Answers := breaks ▸ lineBreakConverter_answers
  have located : hitsAt q q.prepareMaps = fun step => pure (q.hitPairs step) :=
    funext (hitsAt_eq indexed inMemory breaks fits)
  have rowed : ∀ e ∈ (List.range q.loaded.length).flatMap q.hitPairs,
      e.1 < q.breakpoints.length := by
    intro e mem
    obtain ⟨step, -, mem⟩ := List.mem_flatMap.mp mem
    exact lt_of_mem_hitPairs mem
  rw [IndexRequest.run_eq indexed answers fits, ← IndexRequest.distribute_hitPairs,
    ← distribute_eq rowed, run, prepareMaps_eq codes inMemory]
  change (List.range q.loaded.length).mapM (hitsAt q q.prepareMaps) >>= _ = _
  rw [located, List.mapM_pure]
  rfl

def hitAfter (step : Nat) (hits : List Nat) : Option Nat := hits[partitionPoint (· ≤ step) hits]?

def hitBefore (step : Nat) (hits : List Nat) : Checked (Option Nat) :=
  match partitionPoint (· < step) hits with
  | 0 => .ok none
  | place + 1 => (Checked.get hits place).map some

def nextHit (e : BreakpointEngine) (current : Nat) (direction : Direction) : Checked (Option Nat) :=
  let indexed := e.entries.entries.filterMap Prod.snd
  match direction with
  | .forward => .ok (indexed.filterMap (hitAfter current)).min?
  | .backward => return ((← indexed.mapM (hitBefore current)).filterMap id).max?

theorem hitAfter_eq (step : Nat) : hitAfter step = BreakpointEngine.hitAfter step := by
  funext hits
  rw [hitAfter, getElem?_partitionPoint, BreakpointEngine.hitAfter]
  congr 1
  funext hit
  simp only [← Nat.not_le, decide_not]

theorem hitBefore_eq (step : Nat) (hits : List Nat) :
    hitBefore step hits = .ok (BreakpointEngine.hitBefore step hits) := by
  unfold hitBefore BreakpointEngine.hitBefore
  split
  · next place => rw [getLast?_takeWhile_of_eq_zero place]
  · next before place =>
    have found : 0 < partitionPoint (· < step) hits := by omega
    obtain ⟨hit, read, last⟩ := exists_front found
    rw [place, Nat.succ_sub_one] at read
    rw [last, Checked.get_eq_ok.mpr read]
    rfl

theorem nextHit_eq (e : BreakpointEngine) (current : Nat) (direction : Direction) :
    nextHit e current direction = .ok (e.nextHit current direction) := by
  cases direction with
  | forward => simp only [nextHit, BreakpointEngine.nextHit, hitAfter_eq]
  | backward =>
    have found : hitBefore current = fun hits => pure (BreakpointEngine.hitBefore current hits) :=
      funext (hitBefore_eq current)
    simp only [nextHit, BreakpointEngine.nextHit, found, List.mapM_pure, pure_bind,
      List.filterMap_map, Function.id_comp]
    rfl

end TraceDebug.Guarded

import TraceDebug.Breakpoint
import TraceDebug.LoadedTrace

/-!
# Indexing hits

A breakpoint is hit at every step whose location starts on its row in a file
that its path matches. All requested breakpoints are indexed together: the
source map of each frame address is prepared once, and every step is located
once. The order in which steps are visited does not show in the result.
-/

namespace TraceDebug

/-- Everything needed to compute hits away from the breakpoint set. -/
structure IndexRequest where
  revision : Nat
  breakpoints : List Breakpoint
  compilation : Compilation
  loaded : LoadedTrace
  resolver : Resolver
  parallel : Bool

structure IndexResult where
  revision : Nat
  hits : List (Breakpoint × List Nat)
  deriving DecidableEq

def Breakpoint.hitBy (b : Breakpoint) (location : SourceLocation) : Bool :=
  b.matchesPath location.path && location.span.startsOn b.row

namespace IndexRequest

abbrev Maps := Table ExecutingAddress (Option ContractSourceMap)

/-- The source map of every frame address; none where preparing fails. -/
def prepareMaps (q : IndexRequest) : Maps :=
  q.loaded.frames.frames.foldl (fun maps frame =>
    if maps.contains frame.address then maps
    else maps.insert frame.address
      (q.resolver.reader.prepare frame.address q.loaded.trace (some q.compilation)).toOption) .empty

def locationOf (q : IndexRequest) (maps : Maps) (step : Nat) : Checked (Option SourceLocation) := do
  match ← q.loaded.frames.addressAt step, q.loaded.step? step with
  | .ok address, some executed =>
    match (maps.get? address).join with
    | some map =>
      return (← q.resolver.locate map executed.pc q.compilation).location?
    | none => return none
  | _, _ => return none

/-- The requested breakpoints hit at a step, by their number in the request. -/
def hitsAt (q : IndexRequest) (maps : Maps) (step : Nat) : Checked (List (Nat × Nat)) := do
  match ← q.locationOf maps step with
  | none => return []
  | some location =>
    return q.breakpoints.zipIdx.filterMap fun (b, number) =>
      if b.hitBy location then some (number, step) else none

/-- The hits at the given steps, in the order of the steps. -/
def collect (q : IndexRequest) (maps : Maps) (steps : List Nat) : Checked (List (Nat × Nat)) :=
  return (← steps.mapM (q.hitsAt maps)).flatten

def chunkSize : Nat := 256

def chunks (l : List Nat) : List (List Nat) :=
  match l with
  | [] => []
  | a :: rest => (a :: rest).take chunkSize :: chunks ((a :: rest).drop chunkSize)
termination_by l.length
decreasing_by simp only [List.length_drop, List.length_cons, chunkSize]; omega

/-- The hits at the given steps, located by tasks that run side by side. -/
def collectParallel (q : IndexRequest) (maps : Maps) (steps : List Nat) :
    Checked (List (Nat × Nat)) :=
  let tasks := (chunks steps).map fun chunk => Task.spawn fun _ => q.collect maps chunk
  return (← tasks.mapM Task.get).flatten

/-- The ascending steps of the breakpoint with the given number. -/
def stepsOf (pairs : List (Nat × Nat)) (number : Nat) : List Nat :=
  (pairs.filterMap fun (n, step) => if n = number then some step else none).mergeSort

def distribute (q : IndexRequest) (pairs : List (Nat × Nat)) : IndexResult :=
  ⟨q.revision, q.breakpoints.zipIdx.map fun (b, number) => (b, stepsOf pairs number)⟩

def runWith (q : IndexRequest) (maps : Maps) : Checked IndexResult := do
  let steps := List.range q.loaded.length
  let pairs ← if q.parallel then q.collectParallel maps steps else q.collect maps steps
  return q.distribute pairs

def run (q : IndexRequest) : Checked IndexResult := q.runWith q.prepareMaps

end IndexRequest

end TraceDebug

import TraceDebug.Breakpoint.HitIndex

/-!
# The breakpoint engine

The set of breakpoints with their hits, as far as they are indexed. Any change
of the set, the compilation or the trace raises the revision and drops all hits.
Indexing runs elsewhere; its result counts only if the revision is still the one
it was asked at.
-/

namespace TraceDebug

inductive Direction where
  | forward
  | backward
  deriving DecidableEq, Repr

structure BreakpointEngine where
  /-- The ascending hits of each breakpoint, once indexed. -/
  entries : Table Breakpoint (Option (List Nat))
  artifact : Option Compilation
  resolver : Resolver
  parallel : Bool
  /-- Raised by every change. Unbounded: no session comes to the end of 64 bits. -/
  revision : Nat

namespace BreakpointEngine

def new (resolver : Resolver) (parallel : Bool) : BreakpointEngine :=
  ⟨.empty, none, resolver, parallel, 0⟩

def breakpoints (e : BreakpointEngine) : List Breakpoint := e.entries.keys

def state? (e : BreakpointEngine) (b : Breakpoint) : Option BreakpointState :=
  (e.entries.get? b).map fun hits =>
    if e.artifact.isNone then .inactive else if hits.isSome then .indexed else .stale

def hits? (e : BreakpointEngine) (b : Breakpoint) : Option (List Nat) := (e.entries.get? b).join

/-- Raise the revision and drop all hits. -/
def invalidate (e : BreakpointEngine) : BreakpointEngine :=
  { e with revision := e.revision + 1, entries := e.entries.mapValues fun _ _ => none }

/-- The engine with `b` in the set, and whether it was not there. -/
def add (e : BreakpointEngine) (b : Breakpoint) : BreakpointEngine × Bool :=
  if e.entries.contains b then (e, false)
  else (invalidate { e with entries := e.entries.insert b none }, true)

/-- The engine without `b` in the set, and whether it was there. -/
def remove (e : BreakpointEngine) (b : Breakpoint) : BreakpointEngine × Bool :=
  if e.entries.contains b then (invalidate { e with entries := e.entries.erase b }, true)
  else (e, false)

def clear (e : BreakpointEngine) : BreakpointEngine := invalidate { e with entries := .empty }

def setArtifact (e : BreakpointEngine) (artifact : Option Compilation) : BreakpointEngine :=
  invalidate { e with artifact }

def invalidateTrace (e : BreakpointEngine) : BreakpointEngine := e.invalidate

def unindexed (e : BreakpointEngine) : List Breakpoint :=
  (e.entries.entries.filter (·.2.isNone)).map Prod.fst

/-- The work that brings all breakpoints to the indexed state, if there is any
and there is a compilation. -/
def indexRequest (e : BreakpointEngine) (loaded : LoadedTrace) : Option IndexRequest :=
  match e.artifact, e.unindexed with
  | none, _ => none
  | some _, [] => none
  | some compilation, b :: rest =>
    some ⟨e.revision, b :: rest, compilation, loaded, e.resolver, e.parallel⟩

def resultHits (result : IndexResult) (b : Breakpoint) : Option (List Nat) :=
  (result.hits.find? fun entry => compare b entry.1 == .eq).map Prod.snd

/-- Take up the hits of a result, unless anything changed since it was asked for. -/
def apply (e : BreakpointEngine) (result : IndexResult) : BreakpointEngine × Bool :=
  if result.revision = e.revision then
    ({ e with entries := e.entries.mapValues fun b hits => (resultHits result b).or hits }, true)
  else (e, false)

def ensureIndexed (e : BreakpointEngine) (loaded : LoadedTrace) : Checked BreakpointEngine :=
  match e.indexRequest loaded with
  | none => .ok e
  | some request => return (e.apply (← request.run)).1

def hitAfter (step : Nat) (hits : List Nat) : Option Nat := hits.find? (step < ·)

def hitBefore (step : Nat) (hits : List Nat) : Option Nat := (hits.takeWhile (· < step)).getLast?

/-- The nearest hit of any indexed breakpoint strictly beyond a step. There is
none past the last hit: the search does not wrap around. -/
def nextHit (e : BreakpointEngine) (current : Nat) (direction : Direction) : Option Nat :=
  let indexed := e.entries.entries.filterMap Prod.snd
  match direction with
  | .forward => (indexed.filterMap (hitAfter current)).min?
  | .backward => (indexed.filterMap (hitBefore current)).max?

def continueTo (e : BreakpointEngine) (loaded : LoadedTrace) (current : Nat)
    (direction : Direction) : Checked (BreakpointEngine × Option Nat) := do
  let e ← e.ensureIndexed loaded
  return (e, e.nextHit current direction)

end BreakpointEngine

end TraceDebug

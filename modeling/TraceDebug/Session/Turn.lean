import TraceDebug.Session.Basic

/-!
# Turns of a session

A session is changed only in turns, each made as a whole. A turn gives the
session after it, the events published in it in their order, and the resolution
it started, if it moved the cursor. Everything else runs between turns: fetching
a trace, locating a step, indexing breakpoints.
-/

namespace TraceDebug

structure Turn (α : Type) where
  session : Session
  events : List SessionEvent := []
  started : Option Resolution := none
  result : α

namespace Session

/-- Publish a move of the cursor to `step` and start to locate the step. -/
def moved (s : Session) (step : Nat) (before : List SessionEvent)
    (result : Resolution → α) : Turn α :=
  let s := { s with moves := s.moves + 1 }
  let resolution : Resolution := ⟨s.generation, s.moves, step, s.loaded, s.breakpoints.artifact⟩
  { session := s
    events := before ++ [.cursorChanged step]
    started := some resolution
    result := result resolution }

/-- Drop the loaded trace, or give up the load under way. Says whether there was
anything to unload. -/
def unload (s : Session) : Turn Bool :=
  match s.status with
  | .loaded =>
    { session := { s with
        generation := s.generation + 1
        loaded := none
        navigator := none
        status := .unloaded
        breakpoints := s.breakpoints.invalidateTrace }
      events := [.statusChanged false, .unloaded]
      result := true }
  | .loading =>
    { session := { s with generation := s.generation + 1, status := .unloaded }
      events := [.unloaded]
      result := true }
  | .idle | .unloaded => { session := s, result := false }

/-- Let a load in, unless one is under way. A loaded trace is unloaded first. -/
def beginLoad (s : Session) (designation : TransactionRef) : Turn (Option LoadTicket) :=
  if s.status = .loading then { session := s, result := none }
  else
    let turn := s.unload
    let s := { turn.session with generation := turn.session.generation + 1, status := .loading }
    { session := s
      events := turn.events
      result := some ⟨s.generation, s.provider, designation⟩ }

/-- End the load of a generation. Only the load that the session waits for
changes anything. -/
def commitLoad (s : Session) (generation : Nat) (answer : Except LoadError LoadedTrace) :
    Turn (Except LoadError LoadOutcome) :=
  if s.generation ≠ generation ∨ s.status ≠ .loading then
    { session := s, result := .ok .cancelled }
  else match answer with
    | .error e => { session := { s with status := .idle }, result := .error e }
    | .ok loaded =>
      match Navigator.new? loaded.length with
      | none =>
        { session := { s with status := .idle }
          result := .error (.emptyTrace loaded.transaction.hash) }
      | some navigator =>
        let s := { s with
          breakpoints := s.breakpoints.invalidateTrace
          loaded := some loaded
          navigator := some navigator
          status := .loaded }
        s.moved 0 [.statusChanged true] fun _ => .ok (.loaded loaded.length)

/-- Loads that begin from now on ask another provider. -/
def setProvider (s : Session) (provider : Provider) : Turn Unit :=
  { session := { s with provider }, result := () }

/-- The current step is not located again; the next move uses the new compilation. -/
def setArtifact (s : Session) (artifact : Option Compilation) : Turn Unit :=
  { session := { s with breakpoints := s.breakpoints.setArtifact artifact }, result := () }

def addBreakpoint (s : Session) (b : Breakpoint) : Turn Bool :=
  let (breakpoints, added) := s.breakpoints.add b
  { session := { s with breakpoints }, result := added }

def removeBreakpoint (s : Session) (b : Breakpoint) : Turn Bool :=
  let (breakpoints, removed) := s.breakpoints.remove b
  { session := { s with breakpoints }, result := removed }

def clearBreakpoints (s : Session) : Turn Unit :=
  { session := { s with breakpoints := s.breakpoints.clear }, result := () }

def jumpTo (s : Session) (index : Nat) : Turn (Except NavigationError Resolution) :=
  match s.navigator with
  | none => { session := s, result := .error .notLoaded }
  | some navigator =>
    match navigator.jumpTo index with
    | .error e => { session := s, result := .error e }
    | .ok navigator => { s with navigator := some navigator }.moved index [] .ok

/-- Make a movement. One without target changes nothing. -/
def moveCursor (s : Session) (movement : Movement) :
    Checked (Turn (Except NavigationError (Option Resolution))) :=
  match s.navigator, s.loaded with
  | some navigator, some loaded => do
    match ← navigator.target loaded.frames movement with
    | none => return { session := s, result := .ok none }
    | some target =>
      match navigator.jumpTo target with
      | .error e => return { session := s, result := .error e }
      | .ok navigator =>
        return { s with navigator := some navigator }.moved target [] fun r => .ok (some r)
  | _, _ => .ok { session := s, result := .error .notLoaded }

/-- Jump to the next hit of the breakpoints indexed now. -/
def continueNow (s : Session) (direction : Direction) :
    Turn (Except NavigationError Continuation) :=
  match s.navigator with
  | none => { session := s, result := .error .notLoaded }
  | some navigator =>
    match s.breakpoints.nextHit navigator.cursor direction with
    | none => { session := s, result := .ok (.done none) }
    | some target =>
      match navigator.jumpTo target with
      | .error e => { session := s, result := .error e }
      | .ok navigator =>
        { s with navigator := some navigator }.moved target [.breakpointReached target]
          fun r => .ok (.done (some r))

/-- One pass of a continuation: take up the index of the pass before, then ask
for an index run or, with all breakpoints indexed, jump. -/
def continuePass (s : Session) (direction : Direction) (pending : Option IndexResult) :
    Turn (Except NavigationError Continuation) :=
  match s.loaded with
  | none => { session := s, result := .error .notLoaded }
  | some loaded =>
    let breakpoints := match pending with
      | some result => (s.breakpoints.apply result).1
      | none => s.breakpoints
    let s := { s with breakpoints }
    match breakpoints.indexRequest loaded with
    | some request => { session := s, result := .ok (.index request) }
    | none => s.continueNow direction

/-- Publish a location, if the move it was found for is still the last one. -/
def publishLocation (s : Session) (r : Resolution) (location : ResolvedLocation) : Turn Bool :=
  if s.generation ≠ r.generation ∨ s.moves ≠ r.move then { session := s, result := false }
  else { session := s, events := [.locationResolved location], result := true }

end Session

/-- Locate the step of a move. Without a trace there is nothing to locate. -/
def Resolution.run (r : Resolution) (resolver : Resolver) : Checked (Option ResolvedLocation) :=
  match r.loaded with
  | none => .ok none
  | some loaded => (loaded.resolve resolver r.step r.artifact).map some

/-- Run a resolution and publish what it found. One that faults publishes nothing. -/
def Session.finishResolution (s : Session) (r : Resolution) : Turn Bool :=
  match r.run s.resolver with
  | .ok (some location) => s.publishLocation r location
  | _ => { session := s, result := false }

end TraceDebug

import TraceDebug.Frame.Basic

/-!
# Frame replay

The depth markers of a trace, read from the first step on, say how the stack of
call frames changes. One level up after a call with a target enters the code of
the target; after a creation it enters init code; levels down leave as many
frames; an equal level stays. Any other change makes the trace malformed from
that step on.
-/

namespace TraceDebug

/-- A maximal run of steps with one frame on top of the stack. -/
structure Segment where
  start : Nat
  frame : CallFrameId
  deriving DecidableEq

/-- Why a change of depth cannot be replayed. -/
inductive MalformedCause where
  | missingTarget (caller : Nat)
  | noEntry (opcode : UInt8)
  | tooManyReturns (returns stackSize : Nat)
  | depthJump (before after : Nat)
  deriving DecidableEq

def MalformedCause.message : MalformedCause → String
  | .missingTarget caller => s!"call at step {caller} entered a frame without a call target"
  | .noEntry opcode =>
    s!"depth increased after opcode 0x{String.ofList (Hex.ofByte opcode)}, " ++
      "which cannot enter a frame"
  | .tooManyReturns returns stackSize => s!"returned {returns} frame(s) with only {stackSize} open"
  | .depthJump before after => s!"depth jumped from {before} to {after}"

structure Malformation where
  step : Nat
  cause : MalformedCause
  deriving DecidableEq

/-- What a change of depth asks of the frame stack. -/
inductive DepthChange where
  | stay
  | enter (address : ExecutingAddress)
  | leave (returns : Nat)
  deriving DecidableEq

/-- What the step `caller` enters when the next step is one level deeper. -/
def enteredAddress (caller : Nat) (s : Step) : Except MalformedCause ExecutingAddress :=
  if s.isCall then
    match s.callTarget with
    | some target => .ok (.contract target)
    | none => .error (.missingTarget caller)
  else if s.isCreate then .ok (.creation (.step caller))
  else .error (.noEntry s.opcode)

/-- The change from one step to the next. Depths are words, and the sum behind
the comparison with the next level is a fault when it leaves the word range. -/
def depthChange (caller : Nat) (before after : Step) :
    Checked (Except MalformedCause DepthChange) := do
  if after.depth = before.depth then return .ok .stay
  let deeper ← Checked.add before.depth 1
  if after.depth = deeper then return (enteredAddress caller before).map .enter
  if after.depth < before.depth then return .ok (.leave (before.depth - after.depth))
  return .error (.depthJump before.depth after.depth)

/-- Frames, frame stack and segments after a part of the trace, each with the
newest first. -/
structure Replay where
  frames : List CallFrame
  stack : List CallFrameId
  segments : List Segment
  deriving DecidableEq

namespace Replay

def start (root : ExecutingAddress) : Replay where
  frames := [⟨⟨0⟩, none, 0, root, 0, none⟩]
  stack := [⟨0⟩]
  segments := [⟨0, ⟨0⟩⟩]

def enter (r : Replay) (step : Nat) (address : ExecutingAddress) : Replay :=
  let id : CallFrameId := ⟨r.frames.length⟩
  { frames := ⟨id, r.stack.head?, r.stack.length, address, step, none⟩ :: r.frames
    stack := id :: r.stack
    segments := ⟨step, id⟩ :: r.segments }

/-- Record that the given frames were left right before `step`. -/
def close (step : Nat) (closed : List CallFrameId) (frames : List CallFrame) : List CallFrame :=
  frames.map fun f => if f.id ∈ closed then { f with exitedAt := some step } else f

def leave (r : Replay) (step returns : Nat) : Except MalformedCause Replay :=
  match r.stack.drop returns with
  | [] => .error (.tooManyReturns returns r.stack.length)
  | top :: rest =>
    .ok { frames := close step (r.stack.take returns) r.frames
          stack := top :: rest
          segments := ⟨step, top⟩ :: r.segments }

def apply (r : Replay) (step : Nat) : DepthChange → Except MalformedCause Replay
  | .stay => .ok r
  | .enter address => .ok (r.enter step address)
  | .leave returns => r.leave step returns

/-- Go from the step `before` at `step - 1` to the step `after`. -/
def advance (r : Replay) (step : Nat) (before after : Step) :
    Checked (Except MalformedCause Replay) := do
  match ← depthChange (step - 1) before after with
  | .ok change => return r.apply step change
  | .error cause => return .error cause

/-- Replay the rest of a trace until its end or its first malformed step. -/
def run (r : Replay) (step : Nat) (before : Step) :
    List Step → Checked (Replay × Option Malformation)
  | [] => .ok (r, none)
  | after :: rest => do
    match ← r.advance step before after with
    | .ok next => next.run (step + 1) after rest
    | .error cause => return (r, some ⟨step, cause⟩)

end Replay

end TraceDebug

import TraceDebug.Frame.Replay

/-!
# The frame index

The frames of a trace, computed once, and the questions asked of them: which
frame, address, level and stack belong to a step.
-/

namespace TraceDebug

structure FrameIndex where
  frames : List CallFrame
  /-- The segments, the newest first. -/
  segments : List Segment
  length : Nat
  malformed : Option Malformation
  deriving DecidableEq

namespace FrameIndex

def build (t : Trace) : Checked FrameIndex :=
  match t.steps with
  | [] => .ok ⟨[], [], 0, none⟩
  | first :: rest => do
    let (r, malformed) ← (Replay.start t.root).run 1 first rest
    return ⟨r.frames.reverse, r.segments, t.length, malformed⟩

def isEmpty (ix : FrameIndex) : Bool := ix.length == 0

def frame? (ix : FrameIndex) (id : CallFrameId) : Option CallFrame := ix.frames[id.index]?

/-- The first step that could not be replayed. -/
def malformedAt (ix : FrameIndex) : Option Nat := ix.malformed.map (·.step)

def owner (ix : FrameIndex) (step : Nat) : Checked CallFrame :=
  match ix.segments.find? (·.start ≤ step) with
  | some segment => Checked.get ix.frames segment.frame.index
  | none => .error .differenceUnderflow

def malformationBefore (ix : FrameIndex) (step : Nat) : Option Malformation :=
  ix.malformed.filter (·.step ≤ step)

def frameAt (ix : FrameIndex) (step : Nat) : Checked (Except ResolutionError CallFrame) :=
  if ix.length ≤ step then .ok (.error (.stepOutOfRange step ix.length))
  else match ix.malformationBefore step with
    | some m => .ok (.error (.malformedTrace m.step m.cause.message))
    | none => (ix.owner step).map .ok

def addressAt (ix : FrameIndex) (step : Nat) :
    Checked (Except ResolutionError ExecutingAddress) :=
  (ix.frameAt step).map (·.map (·.address))

def depthAt (ix : FrameIndex) (step : Nat) : Checked (Except ResolutionError Nat) :=
  (ix.frameAt step).map (·.map (·.depth))

/-- A frame behind its callers, outermost first. Callers have smaller numbers. -/
def lineage (ix : FrameIndex) (f : CallFrame) : List CallFrame :=
  match f.parent with
  | none => [f]
  | some p => ancestors p ++ [f]
where
  ancestors (id : CallFrameId) : List CallFrame :=
    match ix.frame? id with
    | none => []
    | some f =>
      match f.parent with
      | none => [f]
      | some p => if p.index < id.index then ancestors p ++ [f] else [f]
  termination_by id.index

def stackAt (ix : FrameIndex) (step : Nat) :
    Checked (Except ResolutionError (List CallFrame)) :=
  (ix.frameAt step).map (·.map ix.lineage)

end FrameIndex

end TraceDebug

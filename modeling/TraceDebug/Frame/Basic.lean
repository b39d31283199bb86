import TraceDebug.Trace.Basic

/-!
# Call frames

A call frame is a stretch of the trace between an entry and its return. Frames
are numbered in the order in which they were entered.
-/

namespace TraceDebug

structure CallFrameId where
  index : Nat
  deriving DecidableEq

def CallFrameId.render (id : CallFrameId) : String := s!"#{id.index}"

structure CallFrame where
  id : CallFrameId
  /-- The frame that opened this one; the outermost frame has none. -/
  parent : Option CallFrameId
  /-- The nesting level; the outermost frame has level zero. -/
  depth : Nat
  address : ExecutingAddress
  enteredAt : Nat
  /-- The first step after the frame returned, if it does. -/
  exitedAt : Option Nat
  deriving DecidableEq

/-- Whether a step runs in the frame or in a frame below it. -/
def CallFrame.contains (f : CallFrame) (step : Nat) : Bool :=
  f.enteredAt ≤ step && match f.exitedAt with
    | some exit => step < exit
    | none => true

/-- Why no frame is known for a step. -/
inductive ResolutionError where
  | stepOutOfRange (index length : Nat)
  | malformedTrace (step : Nat) (reason : String)
  deriving DecidableEq

def ResolutionError.message : ResolutionError → String
  | .stepOutOfRange index length => s!"step {index} out of range (trace has {length} steps)"
  | .malformedTrace step reason => s!"trace malformed at step {step}: {reason}"

end TraceDebug

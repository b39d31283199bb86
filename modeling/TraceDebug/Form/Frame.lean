import TraceDebug.Form.Trace
import TraceDebug.Frame.Basic

/-!
# The JSON form of call frames
-/

namespace TraceDebug

open Json

def CallFrameId.toJson (id : CallFrameId) : Json := nat id.index

def CallFrameId.ofJson? (j : Json) : Option CallFrameId := j.word?.map CallFrameId.mk

def CallFrame.toJson (f : CallFrame) : Json :=
  record [("id", f.id.toJson), ("parent", option CallFrameId.toJson f.parent),
    ("depth", nat f.depth), ("address", f.address.toJson), ("entered_at", nat f.enteredAt),
    ("exited_at", option nat f.exitedAt)]

def CallFrame.ofJson? (j : Json) : Option CallFrame := do
  match ← j.fields? ["id", "parent", "depth", "address", "entered_at", "exited_at"] with
  | [id, parent, depth, address, entered, exited] =>
    return ⟨← id.bind CallFrameId.ofJson?, ← optional? CallFrameId.ofJson? parent,
      ← depth.bind word?, ← address.bind ExecutingAddress.ofJson?, ← entered.bind word?,
      ← optional? word? exited⟩
  | _ => none

def ResolutionError.toJson : ResolutionError → Json
  | .stepOutOfRange index length =>
    tagged "StepOutOfRange" (record [("index", nat index), ("len", nat length)])
  | .malformedTrace step reason =>
    tagged "MalformedTrace" (record [("step", nat step), ("reason", text reason)])

def ResolutionError.ofJson? (j : Json) : Option ResolutionError := do
  match ← j.variant? with
  | ("StepOutOfRange", some data) =>
    match ← data.fields? ["index", "len"] with
    | [index, length] => return .stepOutOfRange (← index.bind word?) (← length.bind word?)
    | _ => none
  | ("MalformedTrace", some data) =>
    match ← data.fields? ["step", "reason"] with
    | [step, reason] => return .malformedTrace (← step.bind word?) (← reason.bind text?)
    | _ => none
  | _ => none

end TraceDebug

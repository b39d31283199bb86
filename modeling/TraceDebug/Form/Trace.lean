import TraceDebug.Json.Bytes
import TraceDebug.Trace.Basic

/-!
# The JSON form of traces

The code table of a trace has keys that are no texts, so it is a list of pairs,
in key order.
-/

namespace TraceDebug

open Json

def CreationSite.toJson : CreationSite → Json
  | .transaction => .text "Transaction"
  | .step index => tagged "Step" (.nat index)

def CreationSite.ofJson? (j : Json) : Option CreationSite := do
  match ← j.variant? with
  | ("Transaction", data) => plain? .transaction data
  | ("Step", some index) => return .step (← index.word?)
  | _ => none

def ExecutingAddress.toJson : ExecutingAddress → Json
  | .contract address => tagged "Contract" (fixedBytes address)
  | .creation site => tagged "Creation" site.toJson

def ExecutingAddress.ofJson? (j : Json) : Option ExecutingAddress := do
  match ← j.variant? with
  | ("Contract", some address) => return .contract (← address.fixedBytes?)
  | ("Creation", some site) => return .creation (← CreationSite.ofJson? site)
  | _ => none

def Step.toJson (s : Step) : Json :=
  record [("pc", .nat s.pc), ("opcode", .nat s.opcode.toNat), ("depth", .nat s.depth),
    ("call_target", option fixedBytes s.callTarget)]

def Step.ofJson? (j : Json) : Option Step := do
  match ← j.fields? ["pc", "opcode", "depth", "call_target"] with
  | [pc, opcode, depth, target] =>
    return ⟨← pc.bind word?, ← opcode.bind byte?, ← depth.bind word?,
      ← optional? fixedBytes? target⟩
  | _ => none

def pairToJson (entry : ExecutingAddress × Bytes) : Json :=
  .array [entry.1.toJson, bytes entry.2]

def pairOfJson? : Json → Option (ExecutingAddress × Bytes)
  | .array [address, code] => return (← ExecutingAddress.ofJson? address, ← code.bytes?)
  | _ => none

def Trace.toJson (t : Trace) : Json :=
  record [("steps", list Step.toJson t.steps), ("root", t.root.toJson),
    ("bytecodes", list pairToJson t.bytecodes.entries)]

def Trace.ofJson? (j : Json) : Option Trace := do
  match ← j.fields? ["steps", "root", "bytecodes"] with
  | [steps, root, bytecodes] =>
    let pairs ← bytecodes.bind (list? pairOfJson?)
    return ⟨← steps.bind (list? Step.ofJson?), ← root.bind ExecutingAddress.ofJson?, .ofList pairs⟩
  | _ => none

end TraceDebug

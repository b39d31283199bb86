import TraceDebug.Json.Bytes
import TraceDebug.Transaction

/-!
# The JSON form of transactions
-/

namespace TraceDebug

open Json

def Transaction.toJson (t : Transaction) : Json :=
  record [("hash", fixedBytes t.hash), ("block_number", option nat t.blockNumber),
    ("transaction_index", option nat t.index), ("from", fixedBytes t.sender),
    ("to", option fixedBytes t.recipient), ("value", quantity t.value), ("input", bytes t.input)]

def Transaction.ofJson? (j : Json) : Option Transaction := do
  match ← j.fields?
      ["hash", "block_number", "transaction_index", "from", "to", "value", "input"] with
  | [hash, block, index, sender, recipient, value, input] =>
    return ⟨← hash.bind fixedBytes?, ← optional? word? block, ← optional? word? index,
      ← sender.bind fixedBytes?, ← optional? fixedBytes? recipient, ← value.bind quantity?,
      ← input.bind bytes?⟩
  | _ => none

def TransactionRef.toJson : TransactionRef → Json
  | .transaction t => tagged "Record" t.toJson
  | .hash h => tagged "Hash" (fixedBytes h)
  | .position block index =>
    tagged "BlockIndex" (record [("block_number", nat block), ("tx_index", nat index)])

def TransactionRef.ofJson? (j : Json) : Option TransactionRef := do
  match ← j.variant? with
  | ("Record", some data) => return .transaction (← Transaction.ofJson? data)
  | ("Hash", some data) => return .hash (← data.fixedBytes?)
  | ("BlockIndex", some data) =>
    match ← data.fields? ["block_number", "tx_index"] with
    | [block, index] => return .position (← block.bind word?) (← index.bind word?)
    | _ => none
  | _ => none

end TraceDebug

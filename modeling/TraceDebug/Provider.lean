import TraceDebug.LoadedTrace

/-!
# Trace providers

Where transactions and their traces come from. A provider answers or fails with
a chain of causes, the outermost first.
-/

namespace TraceDebug

abbrev Causes := List String

structure Provider where
  name : String
  transactionByHash : Hash → Except Causes (Option Transaction)
  transactionAt : (block index : Nat) → Except Causes (Option Transaction)
  trace : Transaction → Except Causes Trace
  /-- Whether an answer to a trace request waits until it is let through. -/
  gated : Bool := false

/-- The transaction that a designation means. A full record means itself. -/
def Provider.resolve (p : Provider) (designation : TransactionRef) :
    Except LoadError Transaction := do
  let found ← match designation with
    | .transaction t => pure (some t)
    | .hash h => (p.transactionByHash h).mapError .provider
    | .position block index => (p.transactionAt block index).mapError .provider
  match found with
  | some t => return t
  | none => throw (.transactionNotFound designation)

/-- Index what a provider answered; a fault of the replay fails the load. -/
def indexAnswer (transaction : Transaction) (answer : Except Causes Trace) :
    Except LoadError LoadedTrace :=
  match answer with
  | .error causes => .error (.provider causes)
  | .ok t =>
    match LoadedTrace.index transaction t with
    | .ok result => result
    | .error fault => .error (.indexing fault)

/-- A provider that answers from a list of recorded transactions, or fails. -/
def Provider.recorded (name : String) (transactions : List (Transaction × Option Trace))
    (lookupFailure traceFailure : Option Causes) (gated : Bool) : Provider where
  name := name
  transactionByHash hash := lookUp fun t => t.hash == hash
  transactionAt block index := lookUp fun t => t.blockNumber == some block && t.index == some index
  trace transaction :=
    match traceFailure with
    | some causes => .error causes
    | none =>
      match (transactions.find? (·.1.hash == transaction.hash)).bind Prod.snd with
      | some t => .ok t
      | none => .error ["no trace"]
  gated := gated
where
  lookUp (p : Transaction → Bool) : Except Causes (Option Transaction) :=
    match lookupFailure with
    | some causes => .error causes
    | none => .ok ((transactions.map Prod.fst).find? p)

end TraceDebug

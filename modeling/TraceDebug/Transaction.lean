import TraceDebug.Trace.Basic

/-!
# Transactions

The transaction whose trace is debugged, and the ways to name one.
-/

namespace TraceDebug

structure Transaction where
  hash : Hash
  blockNumber : Option Nat
  index : Option Nat
  sender : Address
  /-- The recipient; a transaction without one deploys a contract. -/
  recipient : Option Address
  value : Nat
  input : Bytes
  deriving DecidableEq

namespace Transaction

def isCreation (t : Transaction) : Bool := t.recipient.isNone

/-- What the outermost frame of the transaction runs. -/
def rootAddress (t : Transaction) : ExecutingAddress :=
  match t.recipient with
  | some address => .contract address
  | none => .creation .transaction

end Transaction

/-- How the user designates a transaction. -/
inductive TransactionRef where
  | transaction (t : Transaction)
  | hash (hash : Hash)
  | position (block index : Nat)
  deriving DecidableEq

def TransactionRef.render : TransactionRef → String
  | .transaction t => t.hash.toHex
  | .hash h => h.toHex
  | .position block index => s!"block {block} tx #{index}"

end TraceDebug

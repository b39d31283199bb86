import TraceDebug.Address
import TraceDebug.Opcode
import TraceDebug.Table

/-!
# Recorded traces

A trace lists the executed instructions of one transaction, each with the call
depth the recorder saw, and holds the code of the frames that ran. A frame is
told by the address whose code it runs; init code has none before it returns
and is told by the place that started it.
-/

namespace TraceDebug

/-- What started a piece of init code. -/
inductive CreationSite where
  | transaction
  | step (index : Nat)
  deriving DecidableEq

/-- Whose code a call frame runs. -/
inductive ExecutingAddress where
  | contract (address : Address)
  | creation (site : CreationSite)
  deriving DecidableEq

namespace ExecutingAddress

def address? : ExecutingAddress → Option Address
  | .contract address => some address
  | .creation _ => none

def isCreation : ExecutingAddress → Bool
  | .contract _ => false
  | .creation _ => true

def render : ExecutingAddress → String
  | .contract address => address.checksum
  | .creation .transaction => "(Contract Creation - Transaction)"
  | .creation (.step index) => s!"(Contract Creation - Step {index})"

def rank : ExecutingAddress → Nat
  | .contract _ => 0
  | .creation .transaction => 1
  | .creation (.step _) => 2

def code : ExecutingAddress → Bytes
  | .contract address => address.bytes
  | .creation _ => []

def index : ExecutingAddress → Nat
  | .creation (.step index) => index
  | _ => 0

/-- Deployed contracts by address, then the transaction's own init code, then
creating steps in order. -/
def order : ExecutingAddress → ExecutingAddress → Ordering :=
  compareLex (compareOn rank) (compareLex (compareOn code) (compareOn index))

instance : Ord ExecutingAddress := ⟨order⟩

instance : Std.TransOrd ExecutingAddress :=
  inferInstanceAs (Std.TransCmp
    (compareLex (compareOn rank) (compareLex (compareOn code) (compareOn index))))

theorem eq_of_compare_eq {a b : ExecutingAddress} (h : compare a b = .eq) : a = b := by
  have key : a.rank = b.rank ∧ a.code = b.code ∧ a.index = b.index := by
    have : order a b = .eq := h
    simpa [order, compareLex, compareOn, Ordering.then_eq_eq] using this
  obtain ⟨hr, hc, hi⟩ := key
  rcases a with a | (_ | i) <;> rcases b with b | (_ | j) <;> simp_all [rank, code, index]
  exact FixedBytes.ext hc

instance : Std.LawfulEqOrd ExecutingAddress := ⟨eq_of_compare_eq⟩

end ExecutingAddress

structure Step where
  pc : Nat
  opcode : UInt8
  /-- The call depth as recorded; only its changes mean anything. -/
  depth : Nat
  /-- The address whose code a call instruction runs. -/
  callTarget : Option Address := none
  deriving DecidableEq

def Step.isCall (s : Step) : Bool := Opcode.isMessageCall s.opcode

def Step.isCreate (s : Step) : Bool := Opcode.isCreate s.opcode

structure Trace where
  steps : List Step
  root : ExecutingAddress
  bytecodes : Table ExecutingAddress Bytes

namespace Trace

def new (root : ExecutingAddress) : Trace := ⟨[], root, .empty⟩

def length (t : Trace) : Nat := t.steps.length

def isEmpty (t : Trace) : Bool := t.steps.isEmpty

def push (t : Trace) (s : Step) : Trace := { t with steps := t.steps ++ [s] }

def insertBytecode (t : Trace) (address : ExecutingAddress) (code : Bytes) : Trace :=
  { t with bytecodes := t.bytecodes.insert address code }

def bytecode? (t : Trace) (address : ExecutingAddress) : Option Bytes := t.bytecodes.get? address

def step? (t : Trace) (index : Nat) : Option Step := t.steps[index]?

end Trace

end TraceDebug

import TraceDebug.Trace.Basic

/-!
# Building traces

A trace written down call by call. The builder keeps the depth: an opening call
and a creation go one deeper for what follows, a return one up.
-/

namespace TraceDebug

structure TraceBuilder where
  trace : Trace
  depth : Nat

namespace TraceBuilder

/-- The outermost frame has depth one. -/
def new (root : ExecutingAddress) : TraceBuilder := ⟨.new root, 1⟩

def record (b : TraceBuilder) (pc : Nat) (opcode : UInt8) (target : Option Address) :
    TraceBuilder :=
  { b with trace := b.trace.push ⟨pc, opcode, b.depth, target⟩ }

def step (b : TraceBuilder) (pc : Nat) (opcode : UInt8) : TraceBuilder := b.record pc opcode none

/-- Plain instructions at program counters `0`, `1`, and so on. -/
def steps (b : TraceBuilder) (count : Nat) : TraceBuilder :=
  (List.range count).foldl (fun b pc => b.step pc Opcode.jumpdest) b

def deeper (b : TraceBuilder) : TraceBuilder := { b with depth := b.depth + 1 }

def callWith (b : TraceBuilder) (pc : Nat) (opcode : UInt8) (target : Address) : TraceBuilder :=
  (b.record pc opcode (some target)).deeper

def call (b : TraceBuilder) (pc : Nat) (target : Address) : TraceBuilder :=
  b.callWith pc Opcode.call target

def delegateCall (b : TraceBuilder) (pc : Nat) (target : Address) : TraceBuilder :=
  b.callWith pc Opcode.delegateCall target

/-- A call that opens no frame: a precompile, an account without code, a failure. -/
def flatCall (b : TraceBuilder) (pc : Nat) (target : Address) : TraceBuilder :=
  b.record pc Opcode.call (some target)

def create (b : TraceBuilder) (pc : Nat) : TraceBuilder := (b.step pc Opcode.create).deeper

def ret (b : TraceBuilder) (pc : Nat) : TraceBuilder :=
  let b := b.step pc Opcode.return_
  { b with depth := b.depth - 1 }

def code (b : TraceBuilder) (address : ExecutingAddress) (code : Bytes) : TraceBuilder :=
  { b with trace := b.trace.insertBytecode address code }

end TraceBuilder

end TraceDebug

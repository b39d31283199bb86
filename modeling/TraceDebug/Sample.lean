import TraceDebug.Breakpoint
import TraceDebug.Source.Compilation
import TraceDebug.Source.RowEntry
import TraceDebug.Trace.Builder

/-!
# A sample trace

A small compiled contract and a recorded run of it, with a breakpoint that is
hit three times: at the steps 20, 45 and 80.
-/

namespace TraceDebug.Sample

def token : Address := .ofLast 0xaa

def tokenPath : Path := ⟨"contracts/Token.sol"⟩

def twoDigits (n : Nat) : String := if n < 10 then s!"0{n}" else toString n

/-- The source of the token: numbered statements, one on each line. -/
def tokenSource (lines : Nat) : SourceFile :=
  ⟨tokenPath, String.join ((List.range lines).map fun i => s!"    stmt_{twoDigits i};\n")⟩

def code : Bytes := [Opcode.jumpdest, Opcode.jumpdest]

def stepPc (index : Nat) : Nat := if index = 20 ∨ index = 45 ∨ index = 80 then 1 else 0

def trace : Trace :=
  let start := (TraceBuilder.new (.contract token)).code (.contract token) code
  ((List.range 100).foldl (fun b i => b.step (stepPc i) Opcode.jumpdest) start).trace

/-- The first instruction maps to row 0, the second to row 10. -/
def compilation : Checked Compilation := do
  let source := tokenSource 12
  let map := s!"{← source.rowEntry 0 0};{← source.rowEntry 10 0}"
  return (Compilation.empty.withContract "Token" ⟨tokenPath, [], "", code, map⟩).withSource 0 source

def breakpoint : Breakpoint := ⟨⟨"Token.sol"⟩, 10⟩

end TraceDebug.Sample

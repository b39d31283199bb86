import TraceDebug.Bytes
import TraceDebug.Source.File

/-!
# Compilations

What one run of the compiler produced: contracts by name and source files by
file index.
-/

namespace TraceDebug

structure CompiledContract where
  file : Path
  bytecode : Bytes
  sourceMap : String
  deployedBytecode : Bytes
  deployedSourceMap : String
  deriving DecidableEq, Repr

structure Compilation where
  contracts : Table String CompiledContract
  sources : Table Nat SourceFile

namespace Compilation

def empty : Compilation := ⟨.empty, .empty⟩

def withContract (c : Compilation) (name : String) (contract : CompiledContract) : Compilation :=
  { c with contracts := c.contracts.insert name contract }

def withSource (c : Compilation) (id : Nat) (source : SourceFile) : Compilation :=
  { c with sources := c.sources.insert id source }

def source? (c : Compilation) (id : Nat) : Option SourceFile := c.sources.get? id

end Compilation

end TraceDebug

import TraceDebug.Bytecode.Instruction

/-!
# Program counters to instruction numbers

Source maps have an entry per instruction and not per byte. The index tells for
every byte of the code which instruction starts there, if one does.
-/

namespace TraceDebug

structure InstructionIndex where
  /-- For each program counter the number of the instruction that starts there. -/
  starts : List (Option Nat)
  count : Nat
  deriving DecidableEq, Repr

namespace InstructionIndex

def entriesFrom (number : Nat) : Bytes → List (Option Nat)
  | [] => []
  | opcode :: rest =>
    let width := Opcode.immediateSize opcode
    some number :: (rest.take width).map (fun _ => none) ++
      entriesFrom (number + 1) (rest.drop width)
termination_by code => code.length
decreasing_by simp only [List.length_drop, List.length_cons]; omega

def ofCode (code : Bytes) : InstructionIndex :=
  let starts := entriesFrom 0 code
  ⟨starts, starts.countP Option.isSome⟩

/-- The number of the instruction that starts at `pc`; none inside immediate
bytes and past the end. -/
def instructionAt (ix : InstructionIndex) (pc : Nat) : Option Nat := ix.starts[pc]?.join

def isEmpty (ix : InstructionIndex) : Bool := ix.count == 0

end InstructionIndex

end TraceDebug

import TraceDebug.Opcode

/-!
# Instructions of a piece of code

Code is read from its first byte, instruction by instruction; the immediate
bytes of a push are data and not instructions. A push at the end of the code
keeps the immediate bytes that are there.
-/

namespace TraceDebug

structure Instruction where
  pc : Nat
  opcode : UInt8
  immediate : Bytes
  deriving DecidableEq, Repr

namespace Instruction

def pushSize (i : Instruction) : Nat := Opcode.immediateSize i.opcode

def isPush (i : Instruction) : Bool := 0 < i.pushSize

/-- The declared size, which at the end of the code may exceed what is there. -/
def size (i : Instruction) : Nat := 1 + i.pushSize

def bytes (i : Instruction) : Bytes := i.opcode :: i.immediate

end Instruction

/-- The instructions of `code`, when its first byte stands at `pc`. -/
def disassembleFrom (pc : Nat) : Bytes → List Instruction
  | [] => []
  | opcode :: rest =>
    let width := Opcode.immediateSize opcode
    ⟨pc, opcode, rest.take width⟩ :: disassembleFrom (pc + 1 + width) (rest.drop width)
termination_by code => code.length
decreasing_by simp only [List.length_drop, List.length_cons]; omega

def disassemble (code : Bytes) : List Instruction := disassembleFrom 0 code

end TraceDebug

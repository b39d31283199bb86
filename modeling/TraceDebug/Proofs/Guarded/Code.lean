import TraceDebug.Proofs.Bytecode.Disassembly
import TraceDebug.Proofs.Bytecode.Metadata

/-!
# Reading code with every access checked

Finding the trailer of a piece of code, walking along its instructions and numbering them stay
inside the code. The sums stay words since the code lies in memory.
-/

namespace TraceDebug

/-- One past the most bytes that a string or a buffer in memory can have. -/
def memoryLimit : Nat := 9223372036854775808

/-- Behind an index into memory there are words enough for any instruction. -/
theorem add_lt_of_inMemory {n : Nat} (inMemory : n < memoryLimit) : n + 256 < wordLimit := by
  unfold memoryLimit at inMemory
  unfold wordLimit
  omega

namespace Guarded

/-- Each difference is taken where it is known not to be below zero. -/
def start? (code : Bytes) : Checked (Option Nat) := do
  if code.length < 2 then return none
  let split := code.length - 2
  let high ← Checked.get code split
  let low ← Checked.get code (← Checked.add split 1)
  let length := 256 * high.toNat + low.toNat
  if split < length then return none
  match code[split - length]? with
  | some head =>
    return if 0 < length ∧ Metadata.isMapHead head then some (split - length) else none
  | none => return none

def strip (code : Bytes) : Checked Bytes := do
  match ← start? code with
  | some start => Checked.slice code 0 start
  | none => return code

def sameRuntimeCode (deployed compiled : Bytes) : Checked Bool := do
  if compiled.isEmpty then return false
  return (← strip deployed) == (← strip compiled)

variable {code : Bytes}

theorem start?_eq (inMemory : code.length < memoryLimit) :
    start? code = .ok (Metadata.start? code) := by
  by_cases short : code.length < 2
  · rw [start?, if_pos short, Metadata.start?_eq_none_of_short short]
    rfl
  · have long : 2 ≤ code.length := Nat.le_of_not_lt short
    have high := List.getElem?_eq_getElem (show code.length - 2 < code.length by omega)
    have low := List.getElem?_eq_getElem (show code.length - 2 + 1 < code.length by omega)
    have room := add_lt_of_inMemory inMemory
    have sum : Checked.add (code.length - 2) 1 = .ok (code.length - 2 + 1) :=
      Checked.add_eq_ok.mpr ⟨by omega, rfl⟩
    rw [start?, if_neg short, Metadata.start?]
    simp only [Checked.get_eq_ok.mpr high, sum, Checked.get_eq_ok.mpr low, high, low, long, guard,
      bind, Except.bind, Option.bind, if_true]
    generalize 256 * _ + _ = length
    by_cases fits : code.length - 2 < length
    · simp [fits, Nat.not_le.mpr fits]
      rfl
    · have fits' : length ≤ code.length - 2 := Nat.le_of_not_lt fits
      by_cases positive : 0 < length
      · cases code[code.length - 2 - length]? with
        | none =>
          simp [fits, fits', positive]
          rfl
        | some b =>
          cases head : Metadata.isMapHead b <;> simp [fits, fits', positive, head] <;> rfl
      · cases code[code.length - 2 - length]? <;> simp [fits, positive] <;> rfl

theorem strip_eq (inMemory : code.length < memoryLimit) :
    strip code = .ok (Metadata.strip code) := by
  rw [strip, start?_eq inMemory, Metadata.strip]
  cases started : Metadata.start? code with
  | none => rfl
  | some start =>
    have inside : start ≤ code.length := by
      obtain ⟨payload, valid, split⟩ := Metadata.exists_trailer_of_start? started
      have shorter := Metadata.length_lt_withTrailer (code.take start) valid
      rw [← split, List.length_take] at shorter
      omega
    exact Checked.slice_eq_ok (Nat.zero_le _) inside

theorem sameRuntimeCode_eq {deployed compiled : Bytes} (first : deployed.length < memoryLimit)
    (second : compiled.length < memoryLimit) :
    sameRuntimeCode deployed compiled = .ok (Metadata.sameRuntimeCode deployed compiled) := by
  unfold sameRuntimeCode Metadata.sameRuntimeCode
  rw [strip_eq first, strip_eq second]
  cases compiled <;> rfl

def walkFrom (code : Bytes) (pc : Nat) : Checked (List Instruction) :=
  if pc < code.length then do
    let opcode ← Checked.get code pc
    let width := Opcode.immediateSize opcode
    let behind ← Checked.add pc 1
    let next ← Checked.add behind width
    let immediate ← Checked.slice code behind (min next code.length)
    return ⟨pc, opcode, immediate⟩ :: (← walkFrom code (pc + 1 + width))
  else return []
termination_by code.length - pc

def enter (ix : InstructionIndex) : List Instruction → Checked InstructionIndex
  | [] => .ok ix
  | i :: rest => do
    let starts ← Checked.set ix.starts i.pc (some ix.count)
    let count ← Checked.add ix.count 1
    enter ⟨starts, count⟩ rest

def ofCode (code : Bytes) : Checked InstructionIndex := do
  enter ⟨List.replicate code.length none, 0⟩ (← walkFrom code 0)

theorem immediateSize_lt (opcode : UInt8) : Opcode.immediateSize opcode < 256 := by
  have := opcode.toNat_lt
  unfold Opcode.immediateSize
  split <;> omega

/-- Even a cut push at the end of the code asks for few bytes behind it. -/
theorem walkFrom_eq (inMemory : code.length < memoryLimit) (pc : Nat) :
    walkFrom code pc = TraceDebug.walkFrom code pc := by
  fun_induction TraceDebug.walkFrom code pc with
  | case1 pc inside ih =>
    have room := add_lt_of_inMemory inMemory
    have sum (opcode : UInt8) : Checked.add (pc + 1) (Opcode.immediateSize opcode) =
        .ok (pc + 1 + Opcode.immediateSize opcode) := by
      have width := immediateSize_lt opcode
      exact Checked.add_eq_ok.mpr ⟨by omega, rfl⟩
    have behind : Checked.add pc 1 = .ok (pc + 1) := Checked.add_eq_ok.mpr ⟨by omega, rfl⟩
    rw [walkFrom, if_pos inside]
    simp only [behind, sum, ih, bind, Except.bind]
  | case2 pc outside => rw [walkFrom, if_neg outside]

theorem length_disassembleFrom_le (base : Nat) (code : Bytes) :
    (disassembleFrom base code).length ≤ code.length := by
  rw [← InstructionIndex.countP_entriesFrom base 0, ← InstructionIndex.length_entriesFrom 0 code]
  exact List.countP_le_length

theorem enter_eq (ix : InstructionIndex) (instructions : List Instruction)
    (few : ix.count + instructions.length < wordLimit) :
    enter ix instructions = ix.enter instructions := by
  induction instructions generalizing ix with
  | nil => rfl
  | cons i rest ih =>
    rw [List.length_cons] at few
    have next : Checked.add ix.count 1 = .ok (ix.count + 1) :=
      Checked.add_eq_ok.mpr ⟨by omega, rfl⟩
    have others (starts : List (Option Nat)) := ih ⟨starts, ix.count + 1⟩ (by simp only; omega)
    simp only [enter, InstructionIndex.enter, next]
    cases Checked.set ix.starts i.pc (some ix.count) with
    | error fault => rfl
    | ok starts => exact others starts

theorem ofCode_eq (inMemory : code.length < memoryLimit) :
    ofCode code = .ok (.ofCode code) := by
  have room := add_lt_of_inMemory inMemory
  have few := length_disassembleFrom_le 0 code
  rw [← InstructionIndex.tabulate_eq_ofCode, ofCode, InstructionIndex.tabulate,
    walkFrom_eq inMemory, TraceDebug.walkFrom_eq]
  exact enter_eq _ _ (by simp only [List.drop_zero]; omega)

end Guarded

end TraceDebug

import TraceDebug.Proofs.Bytecode.InstructionIndex
import TraceDebug.Proofs.Bytecode.Metadata
import TraceDebug.Proofs.Source.Contract

/-!
# Executed and compiled code

A source map is made for compiled code, and the instructions are numbered in the code that was
executed. The two begin alike: init code is followed by arguments, and runtime code may have
another trailer. As far as they are shared, an instruction has one number in both.
-/

namespace TraceDebug

namespace InstructionIndex

theorem instructionAt_of_isPrefix {shared code : Bytes} {pc : Nat} (begins : shared <+: code)
    (inside : pc < shared.length) :
    (ofCode code).instructionAt pc = (ofCode shared).instructionAt pc := by
  obtain ⟨rest, rfl⟩ := begins
  exact instructionAt_append rest inside

end InstructionIndex

theorem Metadata.strip_isPrefix (code : Bytes) : strip code <+: code := by
  unfold strip
  split
  · exact List.take_prefix _ code
  · exact List.prefix_refl code

namespace CodeKind

variable {kind : CodeKind} {code : Bytes} {contract : CompiledContract}

/-- The compiled code for which the source map of that kind is made. -/
def compiled (contract : CompiledContract) : CodeKind → Bytes
  | .creation => contract.bytecode
  | .runtime => contract.deployedBytecode

/-- What code that runs the contract has in common with the compiled code: all of the init
code, and the runtime code without its trailer. -/
def shared (contract : CompiledContract) : CodeKind → Bytes
  | .creation => contract.bytecode
  | .runtime => Metadata.strip contract.deployedBytecode

theorem shared_isPrefix_compiled (contract : CompiledContract) (kind : CodeKind) :
    kind.shared contract <+: kind.compiled contract := by
  cases kind with
  | creation => exact List.prefix_refl contract.bytecode
  | runtime => exact Metadata.strip_isPrefix contract.deployedBytecode

theorem Matches.shared_isPrefix (h : kind.Matches code contract) :
    kind.shared contract <+: code := by
  cases kind with
  | creation => exact h.2
  | runtime =>
    have begins := Metadata.strip_isPrefix code
    rw [h.2] at begins
    exact begins

/-- Within the shared part the executed code has the instruction numbers of the compiled one. -/
theorem Matches.instructionAt_eq (h : kind.Matches code contract) {pc : Nat}
    (inside : pc < (kind.shared contract).length) :
    (InstructionIndex.ofCode code).instructionAt pc =
      (InstructionIndex.ofCode (kind.compiled contract)).instructionAt pc :=
  (InstructionIndex.instructionAt_of_isPrefix h.shared_isPrefix inside).trans
    (InstructionIndex.instructionAt_of_isPrefix (shared_isPrefix_compiled contract kind)
      inside).symm

end CodeKind

namespace Resolver

/-- How the recorded code of an address is prepared with the contract chosen for it. -/
structure PreparesWith (reader : MapReader) (address : ExecutingAddress) (t : Trace)
    (c : Compilation) (code : Bytes) (name : String) (contract : CompiledContract) : Prop where
  matching : (CodeKind.of address).Matches code contract
  /-- Only a source map that cannot be read prevents it. -/
  total : (∃ m, reader.prepare address t (some c) = .ok m) ∨
    ∃ cause, reader.read ((CodeKind.of address).sourceMap contract) = .error cause ∧
      reader.prepare address t (some c) = .error (.invalidSourceMap cause)
  indexed : ∀ m, reader.prepare address t (some c) = .ok m →
    m.contract = name ∧ m.kind = .of address ∧
      ∀ pc < ((CodeKind.of address).shared contract).length,
        m.instructions.instructionAt pc =
          (InstructionIndex.ofCode ((CodeKind.of address).compiled contract)).instructionAt pc

theorem preparesWith {reader : MapReader} {address : ExecutingAddress} {t : Trace}
    {c : Compilation} {code : Bytes} {name : String} {contract : CompiledContract}
    (recorded : t.bytecode? address = some code)
    (chosen : c.find? code (.of address) = some (name, contract)) :
    PreparesWith reader address t c code name contract := by
  have matching := (Compilation.chosen_of_find? chosen).matching
  cases read : reader.read ((CodeKind.of address).sourceMap contract) with
  | error cause =>
    have unreadable : reader.prepare address t (some c) = .error (.invalidSourceMap cause) := by
      simp only [MapReader.prepare, recorded, chosen, read]
    refine ⟨matching, .inr ⟨cause, read, unreadable⟩, ?_⟩
    intro m prepared
    cases unreadable.symm.trans prepared
  | ok elements =>
    have readable : reader.prepare address t (some c) =
        .ok ⟨name, .of address, .ofCode code, elements⟩ := by
      simp only [MapReader.prepare, recorded, chosen, read]
    refine ⟨matching, .inl ⟨_, readable⟩, ?_⟩
    intro m prepared
    cases readable.symm.trans prepared
    exact ⟨rfl, rfl, fun pc inside => matching.instructionAt_eq inside⟩

/-- Instructions are numbered in the executed code as they are in the compiled code, as far as
the two are shared; and two pieces of code that begin alike number alike so far, wherever the
shared part ends. -/
theorem executed_code_numbered_as_compiled :
    (∀ {reader : MapReader} {address : ExecutingAddress} {t : Trace} {c : Compilation}
        {code : Bytes} {name : String} {contract : CompiledContract},
      t.bytecode? address = some code → c.find? code (.of address) = some (name, contract) →
        PreparesWith reader address t c code name contract) ∧
      ∀ (shared rest other : Bytes) (pc : Nat), pc < shared.length →
        (InstructionIndex.ofCode (shared ++ rest)).instructionAt pc =
          (InstructionIndex.ofCode (shared ++ other)).instructionAt pc := by
  refine ⟨preparesWith, ?_⟩
  intro shared rest other pc inside
  rw [InstructionIndex.instructionAt_append rest inside,
    InstructionIndex.instructionAt_append other inside]

/-- A contract whose init code and whose runtime code end in a push without its bytes. -/
def cutPushes : CompiledContract where
  file := ⟨"Vault.sol"⟩
  bytecode := [0x60, 0, 0x61]
  sourceMap := "0:1:0;0:2"
  deployedBytecode := Metadata.withTrailer [Opcode.jumpdest, 0x62] [0xa1, 1]
  deployedSourceMap := "1:1:0;2:2"

/-- Its init code, with arguments that look like pushes, and its runtime code with another
trailer. -/
def cutPushesTrace : Trace where
  steps := []
  root := .creation .transaction
  bytecodes := .ofList [(.creation .transaction, [0x60, 0, 0x61, 0x60, 0x60, 0x60]),
    (.contract (.ofLast 0xaa), Metadata.withTrailer [Opcode.jumpdest, 0x62] [0xb7, 0x60, 0x60])]

theorem cutPushes_numbered :
    let c := Compilation.empty.withContract "Vault" cutPushes
    ∃ initCode runtimeCode,
      cutPushesTrace.bytecode? (.creation .transaction) = some initCode ∧
      c.find? initCode .creation = some ("Vault", cutPushes) ∧
      PreparesWith compressedReader (.creation .transaction) cutPushesTrace c initCode "Vault"
        cutPushes ∧
      cutPushesTrace.bytecode? (.contract (.ofLast 0xaa)) = some runtimeCode ∧
      c.find? runtimeCode .runtime = some ("Vault", cutPushes) ∧
      PreparesWith compressedReader (.contract (.ofLast 0xaa)) cutPushesTrace c runtimeCode
        "Vault" cutPushes ∧
      (∃ m, compressedReader.prepare (.contract (.ofLast 0xaa)) cutPushesTrace (some c) = .ok m) ∧
      (InstructionIndex.ofCode ([0x61] ++ [0x5b, 0x5b])).instructionAt 0 =
        (InstructionIndex.ofCode ([0x61] ++ [])).instructionAt 0 := by
  intro c
  obtain ⟨prepares, agrees⟩ := executed_code_numbered_as_compiled
  have initCode : cutPushesTrace.bytecode? (.creation .transaction) =
      some [0x60, 0, 0x61, 0x60, 0x60, 0x60] := by decide
  have runtimeCode : cutPushesTrace.bytecode? (.contract (.ofLast 0xaa)) =
      some (Metadata.withTrailer [Opcode.jumpdest, 0x62] [0xb7, 0x60, 0x60]) := by decide
  have initChosen : c.find? [0x60, 0, 0x61, 0x60, 0x60, 0x60] .creation =
      some ("Vault", cutPushes) := by decide
  have runtimeChosen : c.find? (Metadata.withTrailer [Opcode.jumpdest, 0x62] [0xb7, 0x60, 0x60])
      .runtime = some ("Vault", cutPushes) := by decide
  have readable : (compressedReader.read cutPushes.deployedSourceMap).toOption.isSome := by
    decide +kernel
  refine ⟨_, _, initCode, initChosen, prepares initCode initChosen, runtimeCode, runtimeChosen,
    prepares runtimeCode runtimeChosen, ?_, agrees [0x61] [0x5b, 0x5b] [] 0 (by decide)⟩
  apply (prepares runtimeCode runtimeChosen).total.resolve_right
  rintro ⟨cause, unreadable, -⟩
  have unreadable : compressedReader.read cutPushes.deployedSourceMap = .error cause := unreadable
  rw [unreadable] at readable
  cases readable

end Resolver

end TraceDebug

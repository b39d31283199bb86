import TraceDebug.Proofs.Bytecode.InstructionIndex
import TraceDebug.Proofs.Source.Answers
import TraceDebug.Proofs.Source.Contract
import TraceDebug.Proofs.Source.SharedMaps

/-!
# What a step resolves to

Rules say for every step what it resolves to: a location, or the reason of the first
look-up that fails. They name instructions by their place in the disassembled code, count
lines and bytes in the source text, take the contracts in no order, and leave it to a reader
what a source map says. Resolving follows the rules on every loaded trace, and never comes to
a fault as long as the reader fits.
-/

namespace TraceDebug

def SourceMap.Element.range (e : Element) : SourceRange := ⟨e.offset, e.length⟩

/-- The instruction that starts at `pc` has an element, and the element names a file. -/
structure MapsTo (code : Bytes) (elements : List SourceMap.Element) (pc : Nat)
    (element : SourceMap.Element) (file : Nat) : Prop where
  placed : ∃ (k : Nat) (i : Instruction),
    (disassemble code)[k]? = some i ∧ i.pc = pc ∧ elements[k]? = some element
  named : element.file = some file

/-- Where the instruction at `pc` is found with the elements of its contract. -/
inductive ElementOutcome (c : Compilation) (code : Bytes) (elements : List SourceMap.Element)
    (pc : Nat) : LocationOutcome → Prop where
  | noSourceMapping (unmapped : ∀ element file, ¬ MapsTo code elements pc element file) :
      ElementOutcome c code elements pc (.unresolved .noSourceMapping)
  | unknownSource {element file} (mapped : MapsTo code elements pc element file)
      (missing : c.source? file = none) :
      ElementOutcome c code elements pc (.unresolved (.unknownSource file))
  | offsetOutOfBounds {element file source} (mapped : MapsTo code elements pc element file)
      (found : c.source? file = some source)
      (outside : source.size < element.offset + element.length) :
      ElementOutcome c code elements pc (.unresolved .offsetOutOfBounds)
  | resolved {element file source} (mapped : MapsTo code elements pc element file)
      (found : c.source? file = some source)
      (inside : element.offset + element.length ≤ source.size) :
      ElementOutcome c code elements pc
        (.resolved ⟨file, source.path, element.range, element.range.spanIn source.bytes⟩)

/-- Where the instruction at `pc` of the code that `address` runs is found, with source maps as
the reader reads them. -/
inductive CodeOutcome (reader : MapReader) (t : Trace) (address : ExecutingAddress) (pc : Nat) :
    Option Compilation → LocationOutcome → Prop where
  | noArtifact : CodeOutcome reader t address pc none (.unresolved .noArtifact)
  | noCode {c} (missing : t.bytecode? address = none) :
      CodeOutcome reader t address pc (some c) (.unresolved .noCode)
  | noMatchingContract {c code} (recorded : t.bytecode? address = some code)
      (foreign : ∀ name contract, (name, contract) ∈ c.contracts.entries →
        ¬ (CodeKind.of address).Matches code contract) :
      CodeOutcome reader t address pc (some c) (.unresolved .noMatchingContract)
  | invalidSourceMap {c code name contract cause} (recorded : t.bytecode? address = some code)
      (chosen : Compilation.Chosen c.contracts.entries code (.of address) name contract)
      (unreadable : reader.read ((CodeKind.of address).sourceMap contract) = .error cause) :
      CodeOutcome reader t address pc (some c) (.unresolved (.invalidSourceMap cause))
  | prepared {c code name contract elements outcome} (recorded : t.bytecode? address = some code)
      (chosen : Compilation.Chosen c.contracts.entries code (.of address) name contract)
      (read : reader.read ((CodeKind.of address).sourceMap contract) = .ok elements)
      (located : ElementOutcome c code elements pc outcome) :
      CodeOutcome reader t address pc (some c) outcome

/-- What a step of a loaded trace resolves to. -/
inductive StepOutcome (reader : MapReader) (l : LoadedTrace) (artifact : Option Compilation)
    (step : Nat) : LocationOutcome → Prop where
  | address {cause} (unknown : l.frames.addressAt step = .ok (.error cause)) :
      StepOutcome reader l artifact step (.unresolved (.address cause))
  | framed {address executed outcome} (known : l.frames.addressAt step = .ok (.ok address))
      (executes : l.step? step = some executed)
      (found : CodeOutcome reader l.trace address executed.pc artifact outcome) :
      StepOutcome reader l artifact step outcome

namespace ElementOutcome

variable {c : Compilation} {code : Bytes} {elements : List SourceMap.Element} {pc : Nat}
  {name : String} {kind : CodeKind} {reader : MapReader}

theorem elementAt_eq_some_iff {element : SourceMap.Element} :
    (ContractSourceMap.mk name kind (.ofCode code) elements).elementAt pc = some element ↔
      ∃ (k : Nat) (i : Instruction),
        (disassemble code)[k]? = some i ∧ i.pc = pc ∧ elements[k]? = some element := by
  unfold ContractSourceMap.elementAt
  rw [Option.bind_eq_some_iff]
  constructor
  · rintro ⟨k, numbered, listed⟩
    obtain ⟨i, found, start⟩ := InstructionIndex.instructionAt_eq_some_iff.mp numbered
    exact ⟨k, i, found, start, listed⟩
  · rintro ⟨k, i, found, start, listed⟩
    exact ⟨k, InstructionIndex.instructionAt_eq_some_iff.mpr ⟨i, found, start⟩, listed⟩

theorem exists_outcome (c : Compilation) (code : Bytes) (elements : List SourceMap.Element)
    (pc : Nat) : ∃ outcome, ElementOutcome c code elements pc outcome := by
  by_cases mapped : ∃ element file, MapsTo code elements pc element file
  · obtain ⟨element, file, mapped⟩ := mapped
    cases found : c.source? file with
    | none => exact ⟨_, .unknownSource mapped found⟩
    | some source =>
      by_cases inside : element.offset + element.length ≤ source.size
      · exact ⟨_, .resolved mapped found inside⟩
      · exact ⟨_, .offsetOutOfBounds mapped found (Nat.lt_of_not_le inside)⟩
  · refine ⟨_, .noSourceMapping ?_⟩
    intro element file mapsTo
    exact mapped ⟨element, file, mapsTo⟩

theorem locate (fits : ∀ e ∈ elements, e.Fits) {outcome : LocationOutcome}
    (h : ElementOutcome c code elements pc outcome) :
    Resolver.locate ⟨lineBreakConverter, reader⟩ ⟨name, kind, .ofCode code, elements⟩ pc c =
      .ok outcome := by
  have placed {element : SourceMap.Element} {file : Nat}
      (mapped : MapsTo code elements pc element file) :
      (ContractSourceMap.mk name kind (.ofCode code) elements).elementAt pc = some element ∧
        element.offset + element.length < wordLimit := by
    obtain ⟨k, i, found, start, listed⟩ := mapped.placed
    have narrow := fits element (List.mem_of_getElem? listed)
    exact ⟨elementAt_eq_some_iff.mpr ⟨k, i, found, start, listed⟩,
      narrow.offset.add_lt narrow.length⟩
  unfold Resolver.locate
  cases h with
  | noSourceMapping unmapped =>
    split
    · rfl
    · next element found =>
      split
      · rfl
      · next file named =>
        exact absurd ⟨elementAt_eq_some_iff.mp found, named⟩ (unmapped element file)
  | unknownSource mapped missing => simp only [(placed mapped).1, mapped.named, missing]
  | @offsetOutOfBounds element file source mapped found outside =>
    obtain ⟨at', addressable⟩ := placed mapped
    have converted := element.range.convert_of_lt source addressable outside
    simp only [at', mapped.named, found]
    exact Checked.bind_eq_ok.mpr ⟨_, converted, rfl⟩
  | @resolved element file source mapped found inside =>
    obtain ⟨at', addressable⟩ := placed mapped
    have converted := element.range.convert_of_le source addressable inside
    simp only [at', mapped.named, found]
    exact Checked.bind_eq_ok.mpr ⟨_, converted, rfl⟩

end ElementOutcome

namespace CodeOutcome

variable {reader : MapReader} {t : Trace} {address : ExecutingAddress} {pc : Nat}
  {artifact : Option Compilation}

theorem exists_outcome (reader : MapReader) (t : Trace) (address : ExecutingAddress) (pc : Nat)
    (artifact : Option Compilation) :
    ∃ outcome, CodeOutcome reader t address pc artifact outcome := by
  cases artifact with
  | none => exact ⟨_, .noArtifact⟩
  | some c =>
    cases recorded : t.bytecode? address with
    | none => exact ⟨_, .noCode recorded⟩
    | some code =>
      cases found : c.find? code (.of address) with
      | none => exact ⟨_, .noMatchingContract recorded (Compilation.find?_eq_none_iff.mp found)⟩
      | some entry =>
        have chosen := Compilation.find?_eq_some_iff.mp found
        cases read : reader.read ((CodeKind.of address).sourceMap entry.2) with
        | error cause => exact ⟨_, .invalidSourceMap recorded chosen read⟩
        | ok elements =>
          obtain ⟨outcome, located⟩ := ElementOutcome.exists_outcome c code elements pc
          exact ⟨outcome, .prepared recorded chosen read located⟩

theorem resolve (fits : reader.Fits) {outcome : LocationOutcome}
    (h : CodeOutcome reader t address pc artifact outcome) :
    Resolver.resolve ⟨lineBreakConverter, reader⟩ address pc t artifact = .ok outcome := by
  unfold Resolver.resolve MapReader.prepare
  cases h with
  | noArtifact => rfl
  | noCode missing => simp only [missing]
  | noMatchingContract recorded foreign =>
    simp only [recorded, Compilation.find?_eq_none_iff.mpr foreign]
  | invalidSourceMap recorded chosen unreadable =>
    simp only [recorded, Compilation.find?_eq_some_iff.mpr chosen, unreadable]
  | prepared recorded chosen read located =>
    simp only [recorded, Compilation.find?_eq_some_iff.mpr chosen, read]
    exact located.locate (fits _ _ read)

end CodeOutcome

namespace StepOutcome

variable {reader : MapReader} {l : LoadedTrace} {artifact : Option Compilation} {step : Nat}

theorem exists_outcome (reader : MapReader) (indexed : l.Indexed) (artifact : Option Compilation)
    (step : Nat) : ∃ outcome, StepOutcome reader l artifact step outcome := by
  rcases indexed.addressAt_cases step with ⟨cause, unknown⟩ | ⟨address, executed, known, executes⟩
  · exact ⟨_, .address unknown⟩
  · obtain ⟨outcome, found⟩ :=
      CodeOutcome.exists_outcome reader l.trace address executed.pc artifact
    exact ⟨outcome, .framed known executes found⟩

theorem resolveStep (fits : reader.Fits) {outcome : LocationOutcome}
    (h : StepOutcome reader l artifact step outcome) :
    Resolver.resolveStep ⟨lineBreakConverter, reader⟩ l.frames l.trace step artifact =
      .ok ⟨step, outcome⟩ := by
  unfold Resolver.resolveStep
  cases h with
  | address unknown => simp only [unknown, bind, Except.bind, pure, Except.pure]
  | framed known executes found =>
    unfold LoadedTrace.step? at executes
    simp only [known, executes, found.resolve fits, bind, Except.bind, pure, Except.pure]

theorem iff_resolve (fits : reader.Fits) (indexed : l.Indexed) {outcome : LocationOutcome} :
    l.resolve ⟨lineBreakConverter, reader⟩ step artifact = .ok ⟨step, outcome⟩ ↔
      StepOutcome reader l artifact step outcome := by
  constructor
  · intro resolved
    obtain ⟨other, found⟩ := exists_outcome reader indexed artifact step
    cases (found.resolveStep fits).symm.trans resolved
    exact found
  · exact resolveStep fits

end StepOutcome

namespace LoadedTrace

/-- A step resolves to what the rules say, and to nothing else. -/
structure ResolvesByRule (reader : MapReader) (l : LoadedTrace) (artifact : Option Compilation)
    (step : Nat) : Prop where
  exact : ∀ outcome,
    l.resolve ⟨lineBreakConverter, reader⟩ step artifact = .ok ⟨step, outcome⟩ ↔
      StepOutcome reader l artifact step outcome
  total : ∃ outcome,
    l.resolve ⟨lineBreakConverter, reader⟩ step artifact = .ok ⟨step, outcome⟩
  /-- Visiting the contracts in another order leads to the same contract. -/
  choice : ∀ (c : Compilation) (contracts : List (String × CompiledContract)),
    artifact = some c → contracts.Perm c.contracts.entries →
      ∀ code kind, Compilation.leastIn contracts code kind = c.find? code kind
  /-- Resolving with a cache of source maps gives the same, whatever it was used for before. -/
  shared : ∀ (compilations : Nat → Compilation) (sections : List MapCache.Section)
    (build : Option Nat), build.map compilations = artifact →
      ∀ outcome, StepOutcome reader l artifact step outcome →
        (l.resolveShared ⟨lineBreakConverter, reader⟩
          (MapCache.Service.start.run reader l compilations sections).cache step
          (build.map (MapCache.buildOf compilations))).map Prod.snd = .ok ⟨step, outcome⟩

/-- Every step of a loaded trace, with any artifact or none, resolves to what the rules say,
whatever reads the source maps. -/
theorem resolves_by_rule {reader : MapReader} (fits : reader.Fits) {l : LoadedTrace}
    (indexed : l.Indexed) (artifact : Option Compilation) (step : Nat) :
    l.ResolvesByRule reader artifact step where
  exact _ := StepOutcome.iff_resolve fits indexed
  total := by
    obtain ⟨outcome, found⟩ := StepOutcome.exists_outcome reader indexed artifact step
    exact ⟨outcome, found.resolveStep fits⟩
  choice := by
    intro c contracts _ listed code kind
    exact Compilation.leastIn_of_perm listed
  shared := by
    intro compilations sections build named outcome found
    have faithful := (MapCache.Service.sound_run reader l compilations sections).cache
    rw [faithful.resolveShared, named]
    exact found.resolveStep fits

def pushCode : Bytes := [0x60, 0, Opcode.jumpdest]

/-- Two contracts of one code but for the metadata. -/
def namesakes : Compilation :=
  ((Compilation.empty.withContract "Vault"
    ⟨⟨"Vault.sol"⟩, [], "", pushCode ++ [0xa1, 1, 0, 2], "0:1:1;0:2:1"⟩).withContract "Alias"
    ⟨⟨"Alias.sol"⟩, [], "", pushCode ++ [0xa1, 2, 0, 2], "0:2:0;3:2"⟩).withSource 0
      ⟨⟨"src/Alias.sol"⟩, "ab\ncd\n"⟩

/-- It runs the code at the start of the second instruction and between the instructions. -/
def pushTrace : Trace where
  steps := [⟨2, Opcode.jumpdest, 0, none⟩, ⟨1, 0, 0, none⟩]
  root := .contract Activity.rowAddress
  bytecodes := .ofList [(.contract Activity.rowAddress, pushCode ++ [0xa1, 3, 0, 2])]

def pushLoaded : LoadedTrace where
  transaction := Activity.rowTransaction
  trace := pushTrace
  frames := ⟨[⟨⟨0⟩, none, 0, .contract Activity.rowAddress, 0, none⟩], [⟨0, ⟨0⟩⟩], 2, none⟩

theorem namesakes_resolve :
    compressedReader.Fits ∧ pushLoaded.Indexed ∧
      StepOutcome compressedReader pushLoaded (some namesakes) 0
        (.resolved ⟨0, ⟨"src/Alias.sol"⟩, ⟨3, 2⟩, ⟨⟨1, 0⟩, ⟨1, 2⟩⟩⟩) ∧
      StepOutcome compressedReader pushLoaded (some namesakes) 1 (.unresolved .noSourceMapping) ∧
      StepOutcome compressedReader pushLoaded none 2
        (.unresolved (.address (.stepOutOfRange 2 2))) := by
  have indexed : pushLoaded.Indexed := ⟨Activity.rowTransaction, pushTrace, rfl⟩
  have fits := compressedReader_fits
  refine ⟨fits, indexed, ?_, ?_, ?_⟩
  · apply ((resolves_by_rule fits indexed (some namesakes) 0).exact _).mp
    decide +kernel
  · apply ((resolves_by_rule fits indexed (some namesakes) 1).exact _).mp
    decide +kernel
  · apply ((resolves_by_rule fits indexed none 2).exact _).mp
    decide

end LoadedTrace

end TraceDebug

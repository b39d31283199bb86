import TraceDebug.Bytecode.InstructionIndex
import TraceDebug.Bytecode.Metadata
import TraceDebug.Frame.Index
import TraceDebug.Source.Compilation
import TraceDebug.Source.Location
import TraceDebug.Source.MapReader

/-!
# From steps to source locations

A step is located in three look-ups: the compiled contract whose code the frame
runs, the number of the instruction at the program counter, and the element of
the source map at that number. Deployed code matches a contract up to metadata;
init code is followed by the constructor's arguments.
-/

namespace TraceDebug

/-- Which of the two source maps of a contract applies. -/
inductive CodeKind where
  | creation
  | runtime
  deriving DecidableEq, Repr

def CodeKind.of (address : ExecutingAddress) : CodeKind :=
  if address.isCreation then .creation else .runtime

/-- Whether the executed code is the contract's code of the given kind. -/
def CodeKind.accepts (kind : CodeKind) (code : Bytes) (c : CompiledContract) : Bool :=
  match kind with
  | .runtime => Metadata.sameRuntimeCode code c.deployedBytecode
  | .creation => !c.bytecode.isEmpty && c.bytecode.isPrefixOf code

def CodeKind.sourceMap (kind : CodeKind) (c : CompiledContract) : String :=
  match kind with
  | .creation => c.sourceMap
  | .runtime => c.deployedSourceMap

/-- The source map of one contract, ready for look-ups by program counter. -/
structure ContractSourceMap where
  contract : String
  kind : CodeKind
  instructions : InstructionIndex
  elements : List SourceMap.Element
  deriving DecidableEq, Repr

/-- The element of the instruction that starts at `pc`. -/
def ContractSourceMap.elementAt (m : ContractSourceMap) (pc : Nat) : Option SourceMap.Element :=
  (m.instructions.instructionAt pc).bind fun number => m.elements[number]?

/-- Of several matching contracts the one with the least name is taken. -/
def Compilation.find? (c : Compilation) (code : Bytes) (kind : CodeKind) :
    Option (String × CompiledContract) :=
  c.contracts.entries.find? fun entry => kind.accepts code entry.2

/-- Choose the contract whose code `address` runs, and read its source map. -/
def MapReader.prepare (reader : MapReader) (address : ExecutingAddress) (t : Trace)
    (artifact : Option Compilation) : Except UnresolvedReason ContractSourceMap :=
  match artifact with
  | none => .error .noArtifact
  | some compilation =>
    match t.bytecode? address with
    | none => .error .noCode
    | some code =>
      let kind := CodeKind.of address
      match compilation.find? code kind with
      | none => .error .noMatchingContract
      | some (name, contract) =>
        match reader.read (kind.sourceMap contract) with
        | .error cause => .error (.invalidSourceMap cause)
        | .ok elements => .ok ⟨name, kind, .ofCode code, elements⟩

structure Resolver where
  converter : Converter
  reader : MapReader

namespace Resolver

def locate (r : Resolver) (m : ContractSourceMap) (pc : Nat) (compilation : Compilation) :
    Checked LocationOutcome :=
  match m.elementAt pc with
  | none => .ok (.unresolved .noSourceMapping)
  | some element =>
    match element.file with
    | none => .ok (.unresolved .noSourceMapping)
    | some fileId =>
      match compilation.source? fileId with
      | none => .ok (.unresolved (.unknownSource fileId))
      | some source => do
        let range : SourceRange := ⟨element.offset, element.length⟩
        match ← r.converter.convert source range with
        | some span => return .resolved ⟨fileId, source.path, range, span⟩
        | none => return .unresolved .offsetOutOfBounds

def resolve (r : Resolver) (address : ExecutingAddress) (pc : Nat) (t : Trace)
    (artifact : Option Compilation) : Checked LocationOutcome :=
  match artifact with
  | none => .ok (.unresolved .noArtifact)
  | some compilation =>
    match r.reader.prepare address t (some compilation) with
    | .ok m => r.locate m pc compilation
    | .error reason => .ok (.unresolved reason)

def resolveStep (r : Resolver) (frames : FrameIndex) (t : Trace) (step : Nat)
    (artifact : Option Compilation) : Checked ResolvedLocation := do
  match ← frames.addressAt step with
  | .error cause => return ⟨step, .unresolved (.address cause)⟩
  | .ok address =>
    match t.step? step with
    | none => return ⟨step, .unresolved .noCode⟩
    | some executed => return ⟨step, ← r.resolve address executed.pc t artifact⟩

end Resolver

end TraceDebug

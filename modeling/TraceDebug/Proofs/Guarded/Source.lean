import TraceDebug.Proofs.Guarded.Code
import TraceDebug.Proofs.Guarded.Frames
import TraceDebug.Proofs.Source.Answers
import TraceDebug.Proofs.Source.SharedMaps

/-!
# Resolving steps with every access checked

From the table of line starts up to resolving a step through the cache of source maps, every
access is checked and none fails, for all traces and compilations that lie in memory.
-/

namespace TraceDebug

/-- The codes of a trace lie in memory. -/
def Trace.InMemory (t : Trace) : Prop := ∀ e ∈ t.bytecodes.entries, e.2.length < memoryLimit

/-- The deployed codes and the source texts of a compilation lie in memory. -/
structure Compilation.InMemory (c : Compilation) : Prop where
  codes : ∀ e ∈ c.contracts.entries, e.2.deployedBytecode.length < memoryLimit
  texts : ∀ e ∈ c.sources.entries, e.2.size < memoryLimit

theorem Compilation.InMemory.some {c : Compilation} (h : c.InMemory) :
    ∀ d ∈ Option.some c, d.InMemory := by
  rintro d ⟨⟩
  exact h

namespace Guarded

def breaksFrom (offset : Nat) : List UInt8 → Checked (List Nat)
  | [] => .ok []
  | b :: rest =>
    if b = 10 then do
      let start ← Checked.add offset 1
      return start :: (← breaksFrom (offset + 1) rest)
    else breaksFrom (offset + 1) rest

def lineStarts (s : SourceFile) : Checked (List Nat) := return 0 :: (← breaksFrom 0 s.bytes)

/-- The converter that counts line breaks. Where the range ends is computed twice. -/
def converter : Converter where
  convert source range := do
    let stop ← range.stop
    if source.size < stop then return none
    let starts ← lineStarts source
    let first ← positionAt starts range.offset
    return some ⟨first, ← positionAt starts (← range.stop)⟩

theorem breaksFrom_eq {offset : Nat} {text : List UInt8} (few : offset + text.length < wordLimit) :
    breaksFrom offset text = .ok (TraceDebug.breaksFrom offset text) := by
  induction text generalizing offset with
  | nil => rfl
  | cons b rest ih =>
    rw [List.length_cons] at few
    have next : Checked.add offset 1 = .ok (offset + 1) := Checked.add_eq_ok.mpr ⟨by omega, rfl⟩
    rw [breaksFrom, TraceDebug.breaksFrom, ih (by omega), next]
    split <;> rfl

theorem lineStarts_eq {s : SourceFile} (inMemory : s.size < memoryLimit) :
    lineStarts s = .ok s.lineStarts := by
  have room : s.bytes.length + 256 < wordLimit := add_lt_of_inMemory inMemory
  rw [lineStarts, breaksFrom_eq (by omega)]
  rfl

theorem convert_eq {s : SourceFile} (inMemory : s.size < memoryLimit) (range : SourceRange) :
    converter.convert s range = lineBreakConverter.convert s range := by
  simp only [converter, lineBreakConverter, lineStarts_eq inMemory]
  cases range.stop <;> rfl

variable {c : Compilation} {reader : MapReader}

/-- Both converters give one location. -/
theorem locate_eq (inMemory : c.InMemory) (m : ContractSourceMap) (pc : Nat) :
    (Resolver.mk converter reader).locate m pc c =
      (Resolver.mk lineBreakConverter reader).locate m pc c := by
  unfold Resolver.locate
  cases m.elementAt pc with
  | none => rfl
  | some element =>
    cases file : element.file with
    | none => simp only [file]
    | some id =>
      cases found : c.source? id with
      | none => simp only [file, found]
      | some source =>
        have small := inMemory.texts (id, source) (Table.mem_of_get? found)
        simp only [file, found, convert_eq small]

def accepts (kind : CodeKind) (code : Bytes) (c : CompiledContract) : Checked Bool :=
  match kind with
  | .runtime => sameRuntimeCode code c.deployedBytecode
  | .creation => .ok (!c.bytecode.isEmpty && c.bytecode.isPrefixOf code)

/-- All contracts are asked. -/
def accepting (kind : CodeKind) (code : Bytes) :
    List (String × CompiledContract) → Checked (List (String × CompiledContract))
  | [] => .ok []
  | entry :: rest => do
    let accepted ← accepts kind code entry.2
    let others ← accepting kind code rest
    return if accepted then entry :: others else others

/-- Names ascend, so the least one comes first. -/
def find? (c : Compilation) (code : Bytes) (kind : CodeKind) :
    Checked (Option (String × CompiledContract)) :=
  return (← accepting kind code c.contracts.entries).head?

def prepare (reader : MapReader) (address : ExecutingAddress) (t : Trace)
    (artifact : Option Compilation) : Checked (Except UnresolvedReason ContractSourceMap) := do
  match artifact with
  | none => return .error .noArtifact
  | some compilation =>
    match t.bytecode? address with
    | none => return .error .noCode
    | some code =>
      let kind := CodeKind.of address
      match ← find? compilation code kind with
      | none => return .error .noMatchingContract
      | some (name, contract) =>
        match reader.read (kind.sourceMap contract) with
        | .error cause => return .error (.invalidSourceMap cause)
        | .ok elements => return .ok ⟨name, kind, ← ofCode code, elements⟩

theorem accepts_eq {kind : CodeKind} {code : Bytes} {contract : CompiledContract}
    (first : code.length < memoryLimit) (second : contract.deployedBytecode.length < memoryLimit) :
    accepts kind code contract = .ok (kind.accepts code contract) := by
  cases kind with
  | creation => rfl
  | runtime => exact sameRuntimeCode_eq first second

theorem accepting_eq {kind : CodeKind} {code : Bytes} {entries : List (String × CompiledContract)}
    (small : code.length < memoryLimit)
    (codes : ∀ e ∈ entries, e.2.deployedBytecode.length < memoryLimit) :
    accepting kind code entries = .ok (entries.filter fun entry => kind.accepts code entry.2) := by
  induction entries with
  | nil => rfl
  | cons entry rest ih =>
    obtain ⟨first, others⟩ := List.forall_mem_cons.mp codes
    rw [accepting, accepts_eq small first, ih others, List.filter_cons]
    rfl

theorem find?_eq (inMemory : c.InMemory) {code : Bytes} (small : code.length < memoryLimit)
    (kind : CodeKind) : find? c code kind = .ok (c.find? code kind) := by
  rw [find?, accepting_eq small inMemory.codes, Compilation.find?, ← List.head?_filter]
  rfl

theorem prepare_eq {t : Trace} (codes : t.InMemory) {artifact : Option Compilation}
    (inMemory : ∀ c ∈ artifact, c.InMemory) (address : ExecutingAddress) :
    prepare reader address t artifact = .ok (reader.prepare address t artifact) := by
  cases artifact with
  | none => rfl
  | some c =>
    cases found : t.bytecode? address with
    | none =>
      simp only [prepare, MapReader.prepare, found]
      rfl
    | some code =>
      have small : code.length < memoryLimit := codes (address, code) (Table.mem_of_get? found)
      simp only [prepare, MapReader.prepare, found, find?_eq (inMemory c rfl) small,
        ofCode_eq small, bind, Except.bind]
      cases c.find? code (CodeKind.of address) with
      | none => rfl
      | some chosen =>
        cases read : reader.read ((CodeKind.of address).sourceMap chosen.2) <;>
          simp only [read] <;> rfl

def sourceMap (cache : MapCache) (reader : MapReader) (address : ExecutingAddress) (t : Trace)
    (b : Build) : Checked (MapCache × PreparedMap) := do
  match cache.lookUp b address with
  | (cache, .hit prepared) => return (cache, prepared)
  | (cache, .miss serial) =>
    let map ← prepare reader address t (some b.compilation)
    let prepared : PreparedMap := map.map fun map => ⟨serial, map⟩
    return (cache.store b address prepared, prepared)

def addressAt (ix : FrameIndex) (step : Nat) : Checked (Except ResolutionError ExecutingAddress) :=
  (frameAt ix step).map (·.map (·.address))

def resolve (reader : MapReader) (l : LoadedTrace) (cache : MapCache) (step : Nat)
    (artifact : Option Build) : Checked (MapCache × ResolvedLocation) := do
  match ← addressAt l.frames step with
  | .error cause => return (cache, ⟨step, .unresolved (.address cause)⟩)
  | .ok address =>
    match l.step? step, artifact with
    | none, _ => return (cache, ⟨step, .unresolved .noCode⟩)
    | some _, none => return (cache, ⟨step, .unresolved .noArtifact⟩)
    | some executed, some build =>
      match ← sourceMap cache reader address l.trace build with
      | (cache, .ok shared) =>
        return (cache, ⟨step, ← (Resolver.mk converter reader).locate shared.map
          executed.pc build.compilation⟩)
      | (cache, .error reason) => return (cache, ⟨step, .unresolved reason⟩)

theorem sourceMap_eq {t : Trace} (codes : t.InMemory) {b : Build}
    (inMemory : b.compilation.InMemory) (cache : MapCache) (address : ExecutingAddress) :
    sourceMap cache reader address t b = .ok (cache.sourceMap reader address t b) := by
  unfold sourceMap MapCache.sourceMap
  rw [prepare_eq codes inMemory.some]
  obtain ⟨cache, found⟩ := cache.lookUp b address
  cases found <;> rfl

variable {l : LoadedTrace}

theorem addressAt_eq (indexed : l.Indexed) (step : Nat) :
    addressAt l.frames step = l.frames.addressAt step := by
  obtain ⟨nonempty, built⟩ := indexed.built
  rw [addressAt, frameAt_eq nonempty built, FrameIndex.addressAt]

theorem resolve_eq (indexed : l.Indexed) (codes : l.trace.InMemory) {artifact : Option Build}
    (inMemory : ∀ b ∈ artifact, b.compilation.InMemory) (cache : MapCache) (step : Nat) :
    resolve reader l cache step artifact =
      l.resolveShared ⟨lineBreakConverter, reader⟩ cache step artifact := by
  unfold resolve LoadedTrace.resolveShared
  rw [addressAt_eq indexed]
  congr 1
  funext answer
  cases answer with
  | error cause => rfl
  | ok address =>
    cases l.step? step with
    | none => rfl
    | some executed =>
      cases artifact with
      | none => rfl
      | some b =>
        have small := inMemory b rfl
        simp only [sourceMap_eq codes small, locate_eq small]
        rfl

/-- Resolving through a cache comes to the location that is found without it. -/
theorem exists_resolve (fits : reader.Fits) (indexed : l.Indexed) (codes : l.trace.InMemory)
    {compilations : Nat → Compilation} (inMemory : ∀ id, (compilations id).InMemory)
    {cache : MapCache} (faithful : cache.Faithful reader l compilations) (step : Nat)
    (artifact : Option Nat) :
    ∃ after found,
      resolve reader l cache step (artifact.map (MapCache.buildOf compilations)) =
        .ok (after, found) ∧
      l.resolve ⟨lineBreakConverter, reader⟩ step (artifact.map compilations) = .ok found := by
  obtain ⟨found, resolved⟩ := LoadedTrace.exists_resolve indexed
    (r := ⟨lineBreakConverter, reader⟩) lineBreakConverter_answers fits step
    (artifact.map compilations)
  have small : ∀ b ∈ artifact.map (MapCache.buildOf compilations), b.compilation.InMemory := by
    rintro b mem
    obtain ⟨id, -, rfl⟩ := Option.mem_map.mp mem
    exact inMemory id
  have uncached := (faithful.resolveShared lineBreakConverter step artifact).trans resolved
  obtain ⟨⟨after, same⟩, ended, rfl⟩ := Checked.map_eq_ok.mp uncached
  exact ⟨after, same, (resolve_eq indexed codes small cache step).trans ended, resolved⟩

end Guarded

end TraceDebug

import TraceDebug.Form.Frame
import TraceDebug.Source.Compilation
import TraceDebug.Source.Location

/-!
# The JSON form of sources, compilations and locations
-/

namespace TraceDebug

open Json

def Path.toJson (p : Path) : Json := .text p.text

def Path.ofJson? (j : Json) : Option Path := j.text?.map Path.mk

def SourceFile.toJson (s : SourceFile) : Json :=
  record [("path", s.path.toJson), ("content", text s.content)]

def SourceFile.ofJson? (j : Json) : Option SourceFile := do
  match ← j.fields? ["path", "content"] with
  | [path, content] => return ⟨← path.bind Path.ofJson?, ← content.bind text?⟩
  | _ => none

def CompiledContract.toJson (c : CompiledContract) : Json :=
  record [("file", c.file.toJson), ("bytecode", bytes c.bytecode),
    ("source_map", text c.sourceMap), ("deployed_bytecode", bytes c.deployedBytecode),
    ("deployed_source_map", text c.deployedSourceMap)]

def CompiledContract.ofJson? (j : Json) : Option CompiledContract := do
  match ← j.fields?
      ["file", "bytecode", "source_map", "deployed_bytecode", "deployed_source_map"] with
  | [file, code, map, deployedCode, deployedMap] =>
    return ⟨← file.bind Path.ofJson?, ← code.bind bytes?, ← map.bind text?,
      ← deployedCode.bind bytes?, ← deployedMap.bind text?⟩
  | _ => none

def Compilation.toJson (c : Compilation) : Json :=
  record [("contracts", record (c.contracts.entries.map fun e => (e.1, e.2.toJson))),
    ("sources", record (c.sources.entries.map fun e => (toString e.1, e.2.toJson)))]

def Compilation.ofJson? (j : Json) : Option Compilation := do
  match ← j.fields? ["contracts", "sources"] with
  | [contracts, sources] =>
    return ⟨← contracts.bind (table? Spelling.text? CompiledContract.ofJson?),
      ← sources.bind (table? fileIdName? SourceFile.ofJson?)⟩
  | _ => none

def SourceRange.toJson (r : SourceRange) : Json :=
  record [("offset", nat r.offset), ("length", nat r.length)]

def SourceRange.ofJson? (j : Json) : Option SourceRange := do
  match ← j.fields? ["offset", "length"] with
  | [offset, length] => return ⟨← offset.bind word?, ← length.bind word?⟩
  | _ => none

def LineColumn.toJson (p : LineColumn) : Json :=
  record [("line", nat p.line), ("column", nat p.column)]

def LineColumn.ofJson? (j : Json) : Option LineColumn := do
  match ← j.fields? ["line", "column"] with
  | [line, column] => return ⟨← line.bind word?, ← column.bind word?⟩
  | _ => none

def Span.toJson (s : Span) : Json := record [("start", s.start.toJson), ("end", s.stop.toJson)]

def Span.ofJson? (j : Json) : Option Span := do
  match ← j.fields? ["start", "end"] with
  | [start, stop] => return ⟨← start.bind LineColumn.ofJson?, ← stop.bind LineColumn.ofJson?⟩
  | _ => none

def SourceLocation.toJson (l : SourceLocation) : Json :=
  record [("file_id", nat l.fileId), ("path", l.path.toJson), ("range", l.range.toJson),
    ("span", l.span.toJson)]

def SourceLocation.ofJson? (j : Json) : Option SourceLocation := do
  match ← j.fields? ["file_id", "path", "range", "span"] with
  | [id, path, range, span] =>
    return ⟨← id.bind fileId?, ← path.bind Path.ofJson?, ← range.bind SourceRange.ofJson?,
      ← span.bind Span.ofJson?⟩
  | _ => none

def UnresolvedReason.toJson : UnresolvedReason → Json
  | .noArtifact => text "NoArtifact"
  | .address cause => tagged "Address" cause.toJson
  | .noCode => text "NoCode"
  | .noMatchingContract => text "NoMatchingContract"
  | .noSourceMapping => text "NoSourceMapping"
  | .unknownSource id => tagged "UnknownSource" (nat id)
  | .invalidSourceMap message => tagged "InvalidSourceMap" (text message)
  | .offsetOutOfBounds => text "OffsetOutOfBounds"

def UnresolvedReason.ofJson? (j : Json) : Option UnresolvedReason := do
  match ← j.variant? with
  | ("NoArtifact", data) => plain? .noArtifact data
  | ("Address", some data) => return .address (← ResolutionError.ofJson? data)
  | ("NoCode", data) => plain? .noCode data
  | ("NoMatchingContract", data) => plain? .noMatchingContract data
  | ("NoSourceMapping", data) => plain? .noSourceMapping data
  | ("UnknownSource", some data) => return .unknownSource (← data.fileId?)
  | ("InvalidSourceMap", some data) => return .invalidSourceMap (← data.text?)
  | ("OffsetOutOfBounds", data) => plain? .offsetOutOfBounds data
  | _ => none

def LocationOutcome.toJson : LocationOutcome → Json
  | .resolved location => tagged "Resolved" location.toJson
  | .unresolved reason => tagged "Unresolved" reason.toJson

def LocationOutcome.ofJson? (j : Json) : Option LocationOutcome := do
  match ← j.variant? with
  | ("Resolved", some data) => return .resolved (← SourceLocation.ofJson? data)
  | ("Unresolved", some data) => return .unresolved (← UnresolvedReason.ofJson? data)
  | _ => none

def ResolvedLocation.toJson (r : ResolvedLocation) : Json :=
  record [("step", nat r.step), ("outcome", r.outcome.toJson)]

def ResolvedLocation.ofJson? (j : Json) : Option ResolvedLocation := do
  match ← j.fields? ["step", "outcome"] with
  | [step, outcome] => return ⟨← step.bind word?, ← outcome.bind LocationOutcome.ofJson?⟩
  | _ => none

end TraceDebug

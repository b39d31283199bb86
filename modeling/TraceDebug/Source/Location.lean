import TraceDebug.Frame.Basic
import TraceDebug.Source.File

/-!
# Source locations

What is found for a step: a stretch of a source file, or the reason why there is
none. A missing location is an answer and not an error.
-/

namespace TraceDebug

structure SourceLocation where
  fileId : Nat
  path : Path
  range : SourceRange
  span : Span
  deriving DecidableEq

inductive UnresolvedReason where
  | noArtifact
  | address (cause : ResolutionError)
  | noCode
  | noMatchingContract
  | noSourceMapping
  | unknownSource (id : Nat)
  | invalidSourceMap (text : String)
  | offsetOutOfBounds
  deriving DecidableEq

def UnresolvedReason.message : UnresolvedReason → String
  | .noArtifact => "no compilation artifact available"
  | .address cause => s!"executing address unavailable: {cause.message}"
  | .noCode => "no bytecode recorded for the executing address"
  | .noMatchingContract => "no compiled contract matches the executing code"
  | .noSourceMapping => "instruction has no source mapping"
  | .unknownSource id => s!"unknown source file index {id}"
  | .invalidSourceMap text => s!"invalid source map: {text}"
  | .offsetOutOfBounds => "source range out of bounds"

inductive LocationOutcome where
  | resolved (location : SourceLocation)
  | unresolved (reason : UnresolvedReason)
  deriving DecidableEq

namespace LocationOutcome

def location? : LocationOutcome → Option SourceLocation
  | .resolved location => some location
  | .unresolved _ => none

def isResolved (o : LocationOutcome) : Bool := o.location?.isSome

end LocationOutcome

/-- An outcome with the step it was found for. -/
structure ResolvedLocation where
  step : Nat
  outcome : LocationOutcome
  deriving DecidableEq

def ResolvedLocation.render (r : ResolvedLocation) : String :=
  match r.outcome with
  | .resolved location =>
    let start := location.span.start
    s!"step {r.step} @ {location.path.text}:{start.line}:{start.column}"
  | .unresolved reason => s!"step {r.step} unresolved ({reason.message})"

end TraceDebug

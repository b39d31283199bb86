import TraceDebug.Source.MapCache
import TraceDebug.Text.Duration
import TraceDebug.Transaction

/-!
# Loaded traces

A trace with the index built over it, as a session keeps it. A trace without
steps cannot be loaded, and the outermost frame runs what the transaction
targets, whatever the provider said.
-/

namespace TraceDebug

inductive LoadError where
  | transactionNotFound (designation : TransactionRef)
  /-- The provider failed; its causes, the outermost first. -/
  | provider (causes : List String)
  | emptyTrace (hash : Hash)
  | timeout (milliseconds : Nat)
  /-- The index could not be built. -/
  | indexing (fault : Fault)
  deriving DecidableEq

def LoadError.message : LoadError → String
  | .transactionNotFound designation => s!"transaction not found: {designation.render}"
  | .provider causes => "trace provider failed: " ++ ": ".intercalate causes
  | .emptyTrace hash => s!"trace for {hash.toHex} has no steps"
  | .timeout milliseconds => s!"loading timed out after {Text.renderMilliseconds milliseconds}"
  | .indexing fault => s!"trace provider failed: trace indexing task failed: {fault.message}"

structure LoadedTrace where
  transaction : Transaction
  trace : Trace
  frames : FrameIndex

namespace LoadedTrace

def index (transaction : Transaction) (t : Trace) : Checked (Except LoadError LoadedTrace) :=
  if t.isEmpty then .ok (.error (.emptyTrace transaction.hash))
  else do
    let t := { t with root := transaction.rootAddress }
    let frames ← FrameIndex.build t
    return .ok ⟨transaction, t, frames⟩

def length (l : LoadedTrace) : Nat := l.trace.length

def step? (l : LoadedTrace) (index : Nat) : Option Step := l.trace.step? index

def addressAt? (l : LoadedTrace) (index : Nat) : Checked (Option ExecutingAddress) :=
  (l.frames.addressAt index).map Except.toOption

def resolve (l : LoadedTrace) (r : Resolver) (step : Nat) (artifact : Option Compilation) :
    Checked ResolvedLocation :=
  r.resolveStep l.frames l.trace step artifact

def resolveShared (l : LoadedTrace) (r : Resolver) (cache : MapCache) (step : Nat)
    (artifact : Option Build) : Checked (MapCache × ResolvedLocation) := do
  match ← l.frames.addressAt step with
  | .error cause => return (cache, ⟨step, .unresolved (.address cause)⟩)
  | .ok address =>
    match l.step? step, artifact with
    | none, _ => return (cache, ⟨step, .unresolved .noCode⟩)
    | some _, none => return (cache, ⟨step, .unresolved .noArtifact⟩)
    | some executed, some build =>
      match cache.sourceMap r.reader address l.trace build with
      | (cache, .ok shared) =>
        return (cache, ⟨step, ← r.locate shared.map executed.pc build.compilation⟩)
      | (cache, .error reason) => return (cache, ⟨step, .unresolved reason⟩)

end LoadedTrace

end TraceDebug

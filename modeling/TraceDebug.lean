import TraceDebug.Bytecode.InstructionIndex
import TraceDebug.Config.Toml
import TraceDebug.Event.Exchange
import TraceDebug.Form.Session
import TraceDebug.Host.Command
import TraceDebug.Json.Writer
import TraceDebug.Proofs.Frame.Agreement
import TraceDebug.Proofs.Session.Continuation
import TraceDebug.Proofs.Session.EventOrder
import TraceDebug.Proofs.Session.Loads
import TraceDebug.Proofs.Session.Pass
import TraceDebug.Sample
import TraceDebug.Proofs.Source.SharedMaps
import TraceDebug.Proofs.Navigator
import TraceDebug.Proofs.Session.Cursor
import TraceDebug.Proofs.Session.Navigation
import TraceDebug.Proofs.Event.Bus
import TraceDebug.Proofs.Event.Delivery
import TraceDebug.Proofs.Frame.Nesting
import TraceDebug.Proofs.Frame.Stacks
import TraceDebug.Proofs.Navigator.StepOver
import TraceDebug.Proofs.Breakpoint.IndexRun
import TraceDebug.Proofs.Source.Resolution
import TraceDebug.Proofs.Navigator.JumpOut
import TraceDebug.Proofs.Navigator.Retrace
import TraceDebug.Proofs.Breakpoint.HitOrder
import TraceDebug.Proofs.Trace.Recovery
import TraceDebug.Proofs.Bytecode.Disassembly
import TraceDebug.Proofs.Bytecode.Metadata
import TraceDebug.Proofs.Source.ExecutedCode
import TraceDebug.Proofs.Frame.Levels
import TraceDebug.Proofs.Source.Offsets
import TraceDebug.Proofs.Breakpoint.Spelling
import TraceDebug.Proofs.Trace.Canonical
import TraceDebug.Proofs.Guarded.Resolution
import TraceDebug.Proofs.Source.RowEntry

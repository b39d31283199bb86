import TraceDebug.Proofs.Session.Progress

/-!
# What events tell

A reader of all events knows, whenever no turn is being taken, whether a trace is loaded
and where the cursor is: every turn publishes what it changes of the two, and no more.
-/

namespace TraceDebug

namespace Session

/-- What a turn tells: nothing, a move, a loaded trace, an unloaded one, or the end of a
load that was waited for. A told cursor is the one that is located. -/
inductive Tells (s s' : Session) : List SessionEvent → Option Resolution → Prop where
  | nothing (active : s'.status = .loaded ↔ s.status = .loaded) (cursor : s'.cursor = s.cursor) :
      Tells s s' [] none
  | move {step : Nat} {before : List SessionEvent} {r : Resolution} (loaded : s.status = .loaded)
      (still : s'.status = .loaded) (cursor : s'.cursor = some step) (located : r.step = step)
      (announced : before = [] ∨ before = [.breakpointReached step]) :
      Tells s s' (before ++ [.cursorChanged step]) (some r)
  | load {r : Resolution} (empty : s.status ≠ .loaded) (loaded : s'.status = .loaded)
      (cursor : s'.cursor = some 0) (located : r.step = 0) :
      Tells s s' [.statusChanged true, .cursorChanged 0] (some r)
  | unload (loaded : s.status = .loaded) (gone : s'.status ≠ .loaded) (cursor : s'.cursor = none) :
      Tells s s' [.statusChanged false, .unloaded] none
  | cancel (empty : s.status ≠ .loaded) (still : s'.status ≠ .loaded) (cursor : s'.cursor = none) :
      Tells s s' [.unloaded] none

theorem Change.tells {s s' : Session} {pending : Option IndexResult} {events : List SessionEvent}
    {started : Option Resolution} (change : s.Change pending s' events started)
    (consistent : s.Consistent) : s.Tells s' events started := by
  cases change with
  | edited => exact .nothing Iff.rfl rfl
  | @moved n step before navigator _ announced =>
    have cursor : s.cursor = some n.cursor := by simp [Session.cursor, navigator]
    have loaded := consistent.loaded_of_cursor cursor
    exact .move loaded loaded rfl rfl announced
  | unloaded loaded => exact .unload loaded (by simp) rfl
  | cancelled loading =>
    have empty : s.status ≠ .loaded := by simp [loading]
    exact .cancel empty (by simp) (consistent.cursor_eq_none empty)
  | awaited waiting =>
    have empty : s.status ≠ .loaded := by rcases waiting with idle | gone <;> simp [*]
    exact .nothing (by simp [empty]) rfl
  | replaced loaded => exact .unload loaded (by simp) rfl
  | failed loading => exact .nothing (by simp [loading]) rfl
  | installed loading => exact .load (by simp [loading]) rfl rfl rfl

end Session

/-- What a reader of events knows of a session. -/
structure View where
  active : Bool
  cursor : Option Nat
  deriving DecidableEq

namespace View

def hear (v : View) : SessionEvent → View
  | .statusChanged true => { v with active := true }
  | .statusChanged false => { active := false, cursor := none }
  | .cursorChanged step => { v with cursor := some step }
  | .unloaded => { v with cursor := none }
  | .locationResolved _ | .breakpointReached _ => v

/-- Before the first event no trace is known to be loaded. -/
def ofLog (log : List SessionEvent) : View := log.foldl hear ⟨false, none⟩

def ofSession (s : Session) : View := ⟨decide (s.status = .loaded), s.cursor⟩

theorem ofLog_append (log events : List SessionEvent) :
    ofLog (log ++ events) = events.foldl hear (ofLog log) :=
  List.foldl_append

/-- Hearing what a turn tells leads from the session before it to the one after it. -/
theorem foldl_hear_ofSession {s s' : Session} {events : List SessionEvent}
    {started : Option Resolution} (tells : s.Tells s' events started) :
    events.foldl hear (ofSession s) = ofSession s' := by
  cases tells with
  | nothing active cursor => simp [ofSession, active, cursor]
  | move loaded still cursor _ announced =>
    rcases announced with rfl | rfl <;> simp [ofSession, hear, loaded, still, cursor]
  | load empty loaded cursor => simp [ofSession, hear, loaded, cursor]
  | unload loaded gone cursor => simp [ofSession, hear, gone, cursor]
  | cancel empty still cursor => simp [ofSession, hear, empty, still, cursor]

end View

namespace Activity

theorem ofLog_progress {x y : Activity} {action : Action} (progress : Progress x action y)
    (consistent : x.session.Consistent) (h : View.ofLog x.log = View.ofSession x.session) :
    View.ofLog y.log = View.ofSession y.session := by
  cases progress with
  | turn _ change log =>
    rw [log, View.ofLog_append, h, View.foldl_hear_ofSession (change.tells consistent)]
  | located _ _ _ session log =>
    rw [log, View.ofLog_append, h, session]
    rfl
  | ended _ _ session log => rw [log, h, session]

theorem Reachable.ofLog_eq {x : Activity} (h : x.Reachable) :
    View.ofLog x.log = View.ofSession x.session :=
  h.invariant (fun _ _ _ => rfl) fun y action reachable told =>
    ofLog_progress (y.progress action) reachable.consistent told

/-- Under every interleaving, whoever has read all events knows whether a trace is loaded
and where the cursor is. -/
theorem events_tell_session (config : SessionConfig) (provider : Provider)
    (converter : Converter) (actions : List Action) :
    ((View.ofLog ((start config provider converter).run actions).log).active = true ↔
      ((start config provider converter).run actions).session.status = .loaded) ∧
    (View.ofLog ((start config provider converter).run actions).log).cursor =
      ((start config provider converter).run actions).session.cursor := by
  rw [(reachable_run config provider converter actions).ofLog_eq]
  exact ⟨decide_eq_true_iff, rfl⟩

end Activity

end TraceDebug

import TraceDebug.Trace.Basic

/-!
# The call stack of a step

What the depth markers say about one step, without any index: the addresses of
the open frames, the innermost first, replayed from the steps up to that one.
-/

namespace TraceDebug

/-- What the step `caller` opens when the next step is one level deeper. -/
def Step.opened? (s : Step) (caller : Nat) : Option ExecutingAddress :=
  if s.isCall then s.callTarget.map .contract
  else if s.isCreate then some (.creation (.step caller))
  else none

/-- The stack of the step behind `caller`; none if the change of depth is illegal. -/
def Step.nextStack? (before after : Step) (caller : Nat) (stack : List ExecutingAddress) :
    Option (List ExecutingAddress) :=
  if after.depth = before.depth then some stack
  else if after.depth = before.depth + 1 then (before.opened? caller).map (· :: stack)
  else
    let returns := before.depth - after.depth
    if 1 ≤ returns ∧ returns < stack.length then some (stack.drop returns) else none

namespace Trace

/-- The addresses of the frames open at a step, the innermost first. There are
none from the first illegal change of depth on, and none behind the trace. -/
def callStack? (t : Trace) : Nat → Option (List ExecutingAddress)
  | 0 => if t.isEmpty then none else some [t.root]
  | i + 1 => do
    let stack ← t.callStack? i
    (← t.step? i).nextStack? (← t.step? (i + 1)) i stack

theorem callStack?_succ {t : Trace} {i : Nat} {before after : Step}
    (hb : t.steps[i]? = some before) (ha : t.steps[i + 1]? = some after) :
    t.callStack? (i + 1) = (t.callStack? i).bind (before.nextStack? after i) := by
  cases h : t.callStack? i <;> simp [callStack?, step?, h, hb, ha]

end Trace

end TraceDebug

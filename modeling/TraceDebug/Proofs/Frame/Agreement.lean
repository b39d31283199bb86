import Mathlib.Data.List.Basic
import Mathlib.Order.Bounds.Basic
import TraceDebug.Proofs.Frame.CallStack
import TraceDebug.Proofs.Frame.Lookup

/-!
# The frame index agrees with the call stack

The index is built in one pass and answers by a search of its segments and a walk
along parents. Its answers are those of the call stack replayed for each step by
itself. The invariant that ties the two together relates a reached state of the
replay to the addresses on its stack.
-/

namespace TraceDebug

namespace Replay

/-- The addresses of the open frames are those of a stack. -/
def Represents (r : Replay) (stack : List ExecutingAddress) : Prop :=
  r.stack.map (fun id => (r.frame? id).map (·.address)) = stack.map some

theorem Represents.length_eq {r : Replay} {stack : List ExecutingAddress}
    (h : r.Represents stack) : r.stack.length = stack.length := by
  simpa using congrArg List.length h

theorem Represents.known {r : Replay} {stack : List ExecutingAddress} (h : r.Represents stack)
    {id : CallFrameId} (mem : id ∈ r.stack) : ∃ f, r.frame? id = some f := by
  have known : (r.frame? id).map (·.address) ∈ stack.map some :=
    h ▸ List.mem_map_of_mem mem
  obtain ⟨address, -, eq⟩ := List.mem_map.mp known
  obtain ⟨f, hf, -⟩ := Option.map_eq_some_iff.mp eq.symm
  exact ⟨f, hf⟩

/-- Addresses stay as they are while the stack does. -/
theorem map_address_later {i : Nat} {r s : Replay} (later : Later i r s)
    {ids : List CallFrameId} (known : ∀ id ∈ ids, ∃ f, r.frame? id = some f) :
    ids.map (fun id => (s.frame? id).map (·.address)) =
      ids.map fun id => (r.frame? id).map (·.address) := by
  apply List.map_congr_left
  intro id mem
  obtain ⟨f, hf⟩ := known id mem
  obtain ⟨g, hg, same⟩ := later.frame? hf
  simp [hf, hg, (CallFrame.entry_eq_entry same).2.2]

theorem Represents.enter {r : Replay} {stack : List ExecutingAddress} (h : r.Represents stack)
    (i : Nat) (address : ExecutingAddress) :
    (r.enter (i + 1) address).Represents (address :: stack) := by
  have older := map_address_later (r.later_enter i address) fun _ mem => h.known mem
  have newest := congrArg (Option.map (·.address)) (r.frame?_enter_self (i + 1) address)
  exact List.cons_eq_cons.mpr ⟨newest, older.trans h⟩

theorem Represents.left {r : Replay} {stack : List ExecutingAddress} (h : r.Represents stack)
    (i returns : Nat) (top : CallFrameId) :
    (r.left (i + 1) returns top).Represents (stack.drop returns) := by
  have kept := map_address_later (r.later_left i returns top) fun _ mem => h.known mem
  have dropped := congrArg (List.drop returns) (kept.trans h)
  simpa [Represents, Replay.left] using dropped

/-- What the replay enters is what the step opens. -/
theorem toOption_enteredAddress (caller : Nat) (s : Step) :
    (enteredAddress caller s).toOption = s.opened? caller := by
  unfold enteredAddress Step.opened?
  split
  · cases s.callTarget <;> rfl
  · split <;> rfl

theorem nextStack?_deeper {before after : Step} (h : after.depth = before.depth + 1)
    (caller : Nat) (stack : List ExecutingAddress) :
    before.nextStack? after caller stack =
      (enteredAddress caller before).toOption.map (· :: stack) := by
  rw [toOption_enteredAddress]
  simp [Step.nextStack?, h]

theorem nextStack?_returned {before after : Step} {returns : Nat}
    (h : before.depth = after.depth + returns) (positive : 0 < returns) (caller : Nat)
    (stack : List ExecutingAddress) :
    before.nextStack? after caller stack =
      if returns < stack.length then some (stack.drop returns) else none := by
  have shallower : after.depth ≠ before.depth := by omega
  have notDeeper : after.depth ≠ before.depth + 1 := by omega
  have counted : before.depth - after.depth = returns := by omega
  have atLeastOne : 1 ≤ returns := positive
  simp [Step.nextStack?, shallower, notDeeper, counted, atLeastOne]

theorem Represents.advance {r s : Replay} {stack : List ExecutingAddress}
    (h : r.Represents stack) {i : Nat} {before after : Step}
    (advanced : r.advance (i + 1) before after = .ok (.ok s)) :
    ∃ next, before.nextStack? after i stack = some next ∧ s.Represents next := by
  rcases advance_cases advanced with ⟨same, rfl⟩ | ⟨address, deeper, opened, rfl⟩ |
    ⟨returns, top, returned, positive, remaining, rfl⟩
  · exact ⟨stack, by simp [Step.nextStack?, same], h⟩
  · have entered : enteredAddress i before = .ok address := opened
    exact ⟨address :: stack, by rw [nextStack?_deeper deeper, entered]; rfl, h.enter i address⟩
  · have few : returns < stack.length := by
      rw [← h.length_eq]
      apply Nat.lt_of_not_le
      intro all
      simp [List.drop_eq_nil_iff.mpr all] at remaining
    refine ⟨stack.drop returns, ?_, h.left i returns top⟩
    rw [nextStack?_returned returned positive, if_pos few]

/-- Where the replay stops, the call stack does. -/
theorem Represents.stop {r : Replay} {stack : List ExecutingAddress}
    (h : r.Represents stack) {i : Nat} {before after : Step} {cause : MalformedCause}
    (stopped : r.advance (i + 1) before after = .ok (.error cause)) :
    before.nextStack? after i stack = none := by
  rcases advance_error_cases stopped with ⟨deeper, closed⟩ | ⟨returns, returned, positive, many⟩ |
    jump
  · have entered : enteredAddress i before = .error cause := closed
    rw [nextStack?_deeper deeper, entered]
    rfl
  · rw [nextStack?_returned returned positive, ← h.length_eq, if_neg (Nat.not_lt.mpr many)]
  · have notEqual : after.depth ≠ before.depth := by omega
    have notDeeper : after.depth ≠ before.depth + 1 := by omega
    have noReturn : before.depth - after.depth = 0 := by omega
    simp [Step.nextStack?, notEqual, notDeeper, noReturn]

theorem Reaches.callStack? {t : Trace} {i : Nat} {r : Replay} (h : Reaches t i r) :
    ∃ stack, t.callStack? i = some stack ∧ r.Represents stack := by
  induction h with
  | start nonempty => exact ⟨[t.root], by simp [Trace.callStack?, Trace.isEmpty, nonempty], rfl⟩
  | @next i r s before after _ hb ha advanced ih =>
    obtain ⟨stack, current, represents⟩ := ih
    obtain ⟨next, changed, represents'⟩ := represents.advance advanced
    exact ⟨next, by rw [Trace.callStack?_succ hb ha, current]; exact changed, represents'⟩

/-- Right behind the end of a replay that is not complete there is no call stack. -/
theorem Ends.callStack?_eq_none {t : Trace} {s : Replay} {m : Malformation}
    (ends : Ends t s (some m)) : t.callStack? m.step = none := by
  obtain ⟨i, before, after, eq, reached, hb, ha, stopped⟩ := ends
  obtain ⟨stack, current, represents⟩ := reached.callStack?
  rw [eq, Trace.callStack?_succ hb ha, current]
  exact represents.stop stopped

theorem Ends.bound {t : Trace} {s : Replay} {m : Malformation} (ends : Ends t s (some m)) :
    m.step < t.length := by
  obtain ⟨i, before, after, eq, -, -, ha, -⟩ := ends
  rw [eq]
  exact (List.getElem?_eq_some_iff.mp ha).1

theorem Ends.known {t : Trace} {s : Replay} {malformed : Option Malformation}
    (ends : Ends t s malformed) {i : Nat} (bound : i < t.length)
    (before : ∀ m, malformed = some m → i < m.step) : ∃ stack, t.callStack? i = some stack := by
  obtain ⟨r, reached, -⟩ := ends.passed bound before
  obtain ⟨stack, current, -⟩ := reached.callStack?
  exact ⟨stack, current⟩

/-- The replay of the whole trace stops at the first step without a call stack. -/
theorem Ends.isLeast {t : Trace} {s : Replay} {malformed : Option Malformation}
    (ends : Ends t s malformed) (m : Nat) :
    malformed.map (·.step) = some m ↔
      IsLeast {i | i < t.length ∧ t.callStack? i = none} m := by
  cases malformed with
  | none =>
    constructor
    · intro h
      cases h
    · intro least
      obtain ⟨stack, current⟩ := ends.known least.1.1 (by simp)
      cases current.symm.trans least.1.2
  | some c =>
    have least : IsLeast {i | i < t.length ∧ t.callStack? i = none} c.step := by
      refine ⟨⟨ends.bound, ends.callStack?_eq_none⟩, fun i missing => ?_⟩
      by_contra early
      obtain ⟨stack, current⟩ := ends.known missing.1 fun m eq => by
        cases eq
        exact Nat.lt_of_not_le early
      cases current.symm.trans missing.2
    constructor
    · intro h
      cases h
      exact least
    · intro least'
      exact congrArg some (least.unique least')

theorem Ends.eq_none_iff {t : Trace} {s : Replay} {malformed : Option Malformation}
    (ends : Ends t s malformed) :
    malformed.map (·.step) = none ↔ ∀ i < t.length, ∃ stack, t.callStack? i = some stack := by
  cases malformed with
  | none => exact ⟨fun _ i bound => ends.known bound (by simp), fun _ => rfl⟩
  | some c =>
    constructor
    · intro h
      cases h
    · intro all
      obtain ⟨stack, current⟩ := all c.step ends.bound
      cases current.symm.trans ends.callStack?_eq_none

end Replay

/-- The index answers every question about a step as the call stack of the step does. -/
structure FrameIndex.Agrees (ix : FrameIndex) (t : Trace) : Prop where
  /-- The malformed step is the first one without a call stack, if there is one. -/
  malformedAt : ∀ m, ix.malformedAt = some m ↔
    IsLeast {i | i < t.length ∧ t.callStack? i = none} m
  wellFormed : ix.malformedAt = none ↔ ∀ i < t.length, ∃ stack, t.callStack? i = some stack
  /-- Steps before it have a call stack, and the index knows it. -/
  replayed : ∀ i < t.length, (∀ m, ix.malformedAt = some m → i < m) →
    ∃ stack top frames height, t.callStack? i = some stack ∧
      ix.stackAt i = .ok (.ok frames) ∧ frames.map (·.address) = stack.reverse ∧
      ix.addressAt i = .ok (.ok top) ∧ stack.head? = some top ∧
      ix.depthAt i = .ok (.ok height) ∧ stack.length = height + 1
  behind : ∀ m, ix.malformedAt = some m → ∃ reason, ∀ i, m ≤ i → i < t.length →
    ix.Refuses i (.malformedTrace m reason)
  outside : ∀ i, t.length ≤ i → ix.Refuses i (.stepOutOfRange i t.length)

namespace FrameIndex

theorem answers_of_reaches {t : Trace} {i : Nat} {r s : Replay}
    {malformed : Option Malformation} (reached : Replay.Reaches t i r)
    (later : Replay.Later i r s) (before : ∀ m, malformed = some m → i < m.step) :
    ∃ stack top frames height, t.callStack? i = some stack ∧
      (ofReplay t s malformed).stackAt i = .ok (.ok frames) ∧
      frames.map (·.address) = stack.reverse ∧
      (ofReplay t s malformed).addressAt i = .ok (.ok top) ∧ stack.head? = some top ∧
      (ofReplay t s malformed).depthAt i = .ok (.ok height) ∧ stack.length = height + 1 := by
  obtain ⟨stack, current, represents⟩ := reached.callStack?
  obtain ⟨f, found, depth, lineage, top⟩ := reached.frameAt later before
  -- The frames of the lineage are those of the last state, at the places of step `i`.
  have addresses : r.stack.map (fun id => (s.frame? id).map (·.address)) = stack.map some :=
    (Replay.map_address_later later fun _ mem => represents.known mem).trans represents
  refine ⟨stack, f.address, (ofReplay t s malformed).lineage f, f.depth, current, ?_, ?_, ?_, ?_,
    ?_, ?_⟩
  · rw [stackAt, found]
    rfl
  · have mapped := congrArg (List.map (Option.map (·.address))) lineage
    rw [List.map_reverse, List.map_map, List.map_map] at mapped
    have lifted : (((ofReplay t s malformed).lineage f).map (·.address)).map some =
        stack.reverse.map some := by
      rw [List.map_map, List.map_reverse, ← addresses]
      exact mapped
    exact (List.map_injective_iff.mpr (Option.some_injective _)) lifted
  · rw [addressAt, found]
    rfl
  · obtain ⟨id, head, hf⟩ := Option.bind_eq_some_iff.mp top
    obtain ⟨rest, eq⟩ := List.head?_eq_some_iff.mp head
    rw [eq, List.map_cons, hf] at addresses
    cases stack with
    | nil => cases addresses
    | cons address stack =>
      rw [List.map_cons, List.cons.injEq] at addresses
      exact addresses.1.symm
  · rw [depthAt, found]
    rfl
  · rw [← represents.length_eq, depth]

/-- The index of a trace with steps is built and agrees with the call stacks. -/
theorem exists_build_agrees (t : Trace) (nonempty : t.steps ≠ [])
    (bounded : ∀ s ∈ t.steps, s.depth + 1 < wordLimit) :
    ∃ ix, build t = .ok ix ∧ ix.Agrees t := by
  obtain ⟨r, malformed, built, ends⟩ := exists_build nonempty bounded
  refine ⟨ofReplay t r malformed, built, ?_⟩
  exact {
    malformedAt := ends.isLeast
    wellFormed := ends.eq_none_iff
    replayed := by
      intro i bound before
      have before' : ∀ m, malformed = some m → i < m.step :=
        fun m eq => before m.step (by rw [FrameIndex.malformedAt, ofReplay, eq]; rfl)
      obtain ⟨q, reached, later⟩ := ends.passed bound before'
      exact answers_of_reaches reached later before'
    behind := by
      intro m eq
      obtain ⟨c, found, rfl⟩ := Option.map_eq_some_iff.mp eq
      exact ⟨c.cause.message, fun i behind bound => refuses_behind bound found behind⟩
    outside := fun i out => refuses_outside out }

/-- Two nested calls, of which the second borrows code, that return together; then
a creation, and a step that is too deep. -/
def nestedCalls : Trace where
  steps := [⟨0, Opcode.call, 1, some (.ofLast 0xbb)⟩,
    ⟨0, Opcode.delegateCall, 2, some (.ofLast 0xcc)⟩, ⟨0, Opcode.jumpdest, 3, none⟩,
    ⟨1, Opcode.create, 1, none⟩, ⟨0, Opcode.jumpdest, 2, none⟩, ⟨1, Opcode.jumpdest, 5, none⟩]
  root := .contract (.ofLast 0xaa)
  bytecodes := .empty

theorem nestedCalls_agrees :
    nestedCalls.steps ≠ [] ∧ (∀ s ∈ nestedCalls.steps, s.depth + 1 < wordLimit) ∧
      nestedCalls.callStack? 2 = some [.contract (.ofLast 0xcc), .contract (.ofLast 0xbb),
        .contract (.ofLast 0xaa)] ∧
      nestedCalls.callStack? 4 = some [.creation (.step 3), .contract (.ofLast 0xaa)] ∧
      nestedCalls.callStack? 5 = none ∧
      ∃ ix, build nestedCalls = .ok ix ∧ ix.Agrees nestedCalls := by
  have nonempty : nestedCalls.steps ≠ [] := by decide
  have bounded : ∀ s ∈ nestedCalls.steps, s.depth + 1 < wordLimit := by decide
  exact ⟨nonempty, bounded, by decide, by decide, by decide,
    exists_build_agrees nestedCalls nonempty bounded⟩

end FrameIndex

end TraceDebug

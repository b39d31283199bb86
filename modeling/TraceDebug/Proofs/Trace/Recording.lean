import TraceDebug.Proofs.Frame.CallStack
import TraceDebug.Trace.Builder

/-!
# What a builder records

A builder is given calls, and of the frames they open and close it writes down levels
only. Apart from levels, each recorded step opens a frame for the steps behind it, closes
the newest one, or does neither; this tells which frames are open at a step.
-/

namespace TraceDebug

namespace TraceBuilder

/-- A call of a builder. -/
inductive Call where
  | step (pc : Nat) (opcode : UInt8)
  | steps (count : Nat)
  | callWith (pc : Nat) (opcode : UInt8) (target : Address)
  | call (pc : Nat) (target : Address)
  | delegateCall (pc : Nat) (target : Address)
  | flatCall (pc : Nat) (target : Address)
  | create (pc : Nat)
  | ret (pc : Nat)
  | code (address : ExecutingAddress) (code : Bytes)

def perform (b : TraceBuilder) : Call → TraceBuilder
  | .step pc opcode => b.step pc opcode
  | .steps count => b.steps count
  | .callWith pc opcode target => b.callWith pc opcode target
  | .call pc target => b.call pc target
  | .delegateCall pc target => b.delegateCall pc target
  | .flatCall pc target => b.flatCall pc target
  | .create pc => b.create pc
  | .ret pc => b.ret pc
  | .code address code => b.code address code

/-- The trace that some calls build. -/
def recorded (root : ExecutingAddress) (calls : List Call) : Trace :=
  (calls.foldl perform (new root)).trace

/-- What a recorded step does to the open frames. -/
inductive Mark where
  | stays
  | opens (address : ExecutingAddress)
  | closes
  deriving DecidableEq

namespace Mark

/-- The open frames behind a step, the newest first. -/
def after (frames : List ExecutingAddress) : Mark → List ExecutingAddress
  | .stays => frames
  | .opens address => address :: frames
  | .closes => frames.tail

/-- The level behind a step. The level zero has none below it. -/
def level (depth : Nat) : Mark → Nat
  | .stays => depth
  | .opens _ => depth + 1
  | .closes => depth - 1

def isOpening : Mark → Bool
  | .opens _ => true
  | _ => false

variable {mark : Mark} {depth : Nat} {frames : List ExecutingAddress}

theorem isOpening_iff : mark.isOpening = true ↔ mark.level depth = depth + 1 := by
  cases mark with
  | stays => simp [isOpening, level]
  | opens address => simp [isOpening, level]
  | closes =>
    have shallower : depth - 1 ≠ depth + 1 := by omega
    simp [isOpening, level, shallower]

/-- The level is the number of open frames, as long as there is one to close. -/
theorem level_eq (height : depth = frames.length + 1) (closes : mark = .closes → frames ≠ []) :
    mark.level depth = (mark.after frames).length + 1 := by
  subst height
  cases mark with
  | stays => rfl
  | opens address => rfl
  | closes =>
    obtain ⟨newest, rest, rfl⟩ := List.exists_cons_of_ne_nil (closes rfl)
    rfl

end Mark

/-- The marks of what a call records as the steps from `index` on. -/
def Call.marks (index : Nat) : Call → List Mark
  | .step _ _ => [.stays]
  | .steps count => List.replicate count .stays
  | .callWith _ _ target => [.opens (.contract target)]
  | .call _ target => [.opens (.contract target)]
  | .delegateCall _ target => [.opens (.contract target)]
  | .flatCall _ _ => [.stays]
  | .create _ => [.opens (.creation (.step index))]
  | .ret _ => [.closes]
  | .code _ _ => []

def marksFrom (index : Nat) : List Call → List Mark
  | [] => []
  | call :: rest => call.marks index ++ marksFrom (index + (call.marks index).length) rest

/-- One mark for each step that the calls record. -/
def marksOf (calls : List Call) : List Mark := marksFrom 0 calls

/-- The frames open at the step `i`, the newest first and without the outermost one. -/
def openAt (marks : List Mark) (i : Nat) : List ExecutingAddress :=
  (marks.take i).foldl Mark.after []

/-- The number of frames that are opened for at least one further step. -/
def openings (marks : List Mark) : Nat := marks.dropLast.countP Mark.isOpening

/-- Each closing step has a frame to close that was opened before, or it is the last step. -/
def Closable (marks : List Mark) : Prop :=
  ∀ i < marks.length, marks[i]? = some .closes → openAt marks i ≠ [] ∨ i + 1 = marks.length

instance (marks : List Mark) : Decidable (Closable marks) :=
  inferInstanceAs (Decidable (∀ i < marks.length, marks[i]? = some .closes →
    openAt marks i ≠ [] ∨ i + 1 = marks.length))

def Call.entersCode : Call → Bool
  | .callWith _ opcode _ => Opcode.isMessageCall opcode
  | _ => true

structure WellBracketed (calls : List Call) : Prop where
  entersCode : ∀ call ∈ calls, call.entersCode = true
  closable : Closable (marksOf calls)

theorem openAt_succ {marks : List Mark} {i : Nat} {mark : Mark} (marked : marks[i]? = some mark) :
    openAt marks (i + 1) = mark.after (openAt marks i) := by
  rw [openAt, List.take_add_one, marked]
  exact List.foldl_append

theorem level_take_succ {marks : List Mark} {i : Nat} {mark : Mark}
    (marked : marks[i]? = some mark) (depth : Nat) :
    (marks.take (i + 1)).foldl Mark.level depth =
      mark.level ((marks.take i).foldl Mark.level depth) := by
  rw [List.take_add_one, marked]
  exact List.foldl_append

/-- The steps recorded so far have the levels of the marks, and the step of an opening mark
is one that can open its frame. -/
structure Records (root : ExecutingAddress) (b : TraceBuilder) (marks : List Mark) : Prop where
  root : b.trace.root = root
  length : b.trace.steps.length = marks.length
  opened : ∀ (i : Nat) (s : Step) (address : ExecutingAddress), b.trace.steps[i]? = some s →
    marks[i]? = some (.opens address) → s.opened? i = some address
  level : ∀ (i : Nat) (s : Step), b.trace.steps[i]? = some s →
    s.depth = (marks.take i).foldl Mark.level 1
  depth : b.depth = marks.foldl Mark.level 1

variable {root : ExecutingAddress} {b : TraceBuilder} {marks : List Mark}

theorem records_new (root : ExecutingAddress) : Records root (new root) [] where
  root := rfl
  length := rfl
  opened := by
    intro i s address found
    cases found
  level := by
    intro i s found
    cases found
  depth := rfl

theorem step_record_cases {pc : Nat} {opcode : UInt8} {target : Option Address} {i : Nat} {s : Step}
    (found : (b.record pc opcode target).trace.steps[i]? = some s) :
    (i < b.trace.steps.length ∧ b.trace.steps[i]? = some s) ∨
      i = b.trace.steps.length ∧ s = ⟨pc, opcode, b.depth, target⟩ := by
  have inside := (List.getElem?_eq_some_iff.mp found).1
  simp only [TraceBuilder.record, Trace.push, List.length_append, List.length_singleton] at inside
  by_cases earlier : i < b.trace.steps.length
  · refine .inl ⟨earlier, ?_⟩
    rwa [← List.getElem?_append_left earlier]
  · have last : i = b.trace.steps.length := by omega
    subst last
    simp only [TraceBuilder.record, Trace.push, List.getElem?_concat_length] at found
    exact .inr ⟨rfl, (Option.some.inj found).symm⟩

/-- One more step, with the level behind it as its mark says. -/
theorem Records.record (h : Records root b marks) (pc : Nat) (opcode : UInt8)
    (target : Option Address) (mark : Mark)
    (opens : ∀ address, mark = .opens address →
      (⟨pc, opcode, b.depth, target⟩ : Step).opened? marks.length = some address) :
    Records root { b.record pc opcode target with depth := mark.level b.depth }
      (marks ++ [mark]) where
  root := h.root
  length := by
    simp only [TraceBuilder.record, Trace.push, List.length_append, h.length, List.length_singleton]
  opened := by
    intro i s address found marked
    rcases step_record_cases found with ⟨earlier, known⟩ | ⟨rfl, rfl⟩
    · rw [List.getElem?_append_left (h.length ▸ earlier)] at marked
      exact h.opened i s address known marked
    · rw [h.length, List.getElem?_concat_length] at marked
      rw [h.length]
      exact opens address (Option.some.inj marked)
  level := by
    intro i s found
    rcases step_record_cases found with ⟨earlier, known⟩ | ⟨rfl, rfl⟩
    · rw [List.take_append_of_le_length (Nat.le_of_lt (h.length ▸ earlier))]
      exact h.level i s known
    · rw [h.length, List.take_left]
      exact h.depth
  depth := by
    rw [List.foldl_append, ← h.depth]
    rfl

theorem Records.step (h : Records root b marks) (pc : Nat) (opcode : UInt8)
    (target : Option Address) : Records root (b.record pc opcode target) (marks ++ [.stays]) :=
  h.record pc opcode target .stays fun _ opens => nomatch opens

theorem Records.steps (h : Records root b marks) (count : Nat) :
    Records root (b.steps count) (marks ++ List.replicate count .stays) := by
  induction count with
  | zero => exact (List.append_nil marks).symm ▸ h
  | succ count ih =>
    have next := ih.step count Opcode.jumpdest none
    rw [List.append_assoc, ← List.replicate_succ'] at next
    rw [TraceBuilder.steps, List.range_succ, List.foldl_append]
    exact next

theorem Records.callWith (h : Records root b marks) (pc : Nat) {opcode : UInt8}
    (target : Address) (entersCode : Opcode.isMessageCall opcode = true) :
    Records root (b.callWith pc opcode target) (marks ++ [.opens (.contract target)]) := by
  apply h.record pc opcode (some target) (.opens (.contract target))
  intro address opens
  cases opens
  simp [Step.opened?, Step.isCall, entersCode]

theorem Records.create (h : Records root b marks) (pc : Nat) :
    Records root (b.create pc) (marks ++ [.opens (.creation (.step marks.length))]) := by
  apply h.record pc Opcode.create none (.opens (.creation (.step marks.length)))
  intro address opens
  cases opens
  rfl

theorem Records.ret (h : Records root b marks) (pc : Nat) :
    Records root (b.ret pc) (marks ++ [.closes]) :=
  h.record pc Opcode.return_ none .closes fun _ opens => nomatch opens

theorem Records.perform (h : Records root b marks) {call : Call}
    (entersCode : call.entersCode = true) :
    Records root (b.perform call) (marks ++ call.marks marks.length) := by
  cases call with
  | step pc opcode => exact h.step pc opcode none
  | steps count => exact h.steps count
  | callWith pc opcode target => exact h.callWith pc target entersCode
  | call pc target => exact h.callWith pc target rfl
  | delegateCall pc target => exact h.callWith pc target rfl
  | flatCall pc target => exact h.step pc Opcode.call (some target)
  | create pc => exact h.create pc
  | ret pc => exact h.ret pc
  | code address code =>
    have kept : Records root (b.code address code) marks :=
      ⟨h.root, h.length, h.opened, h.level, h.depth⟩
    exact (List.append_nil marks).symm ▸ kept

theorem Records.foldl {calls : List Call} (h : Records root b marks)
    (entersCode : ∀ call ∈ calls, call.entersCode = true) :
    Records root (calls.foldl TraceBuilder.perform b) (marks ++ marksFrom marks.length calls) := by
  induction calls generalizing b marks with
  | nil => exact (List.append_nil marks).symm ▸ h
  | cons call rest ih =>
    have first := h.perform (entersCode call List.mem_cons_self)
    have later := ih first fun other mem => entersCode other (List.mem_cons_of_mem _ mem)
    rwa [List.append_assoc, List.length_append] at later

end TraceBuilder

end TraceDebug

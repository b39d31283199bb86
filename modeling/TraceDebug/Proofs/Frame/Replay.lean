import TraceDebug.Frame.Index

/-!
# States of the replay

The replay of the first steps of a trace as a relation between a step and the
frames, stack and segments built up to it. What one advance can do is said once,
in `advance_cases`; what holds of all reached states follows by induction.
-/

namespace TraceDebug

/-- What is fixed when a frame is entered. -/
def CallFrame.entry (f : CallFrame) : CallFrame := { f with exitedAt := none }

theorem CallFrame.entry_eq_entry {f g : CallFrame} (h : f.entry = g.entry) :
    f.parent = g.parent ∧ f.depth = g.depth ∧ f.address = g.address := by
  simp only [entry, CallFrame.mk.injEq] at h
  exact ⟨h.2.1, h.2.2.1, h.2.2.2.1⟩

/-- Each frame of a stack was opened by the one below it. -/
def Linked (frame? : CallFrameId → Option CallFrame) : List CallFrameId → Prop
  | [] => True
  | id :: rest =>
    (∃ f, frame? id = some f ∧ f.parent = rest.head? ∧ f.depth = rest.length) ∧
      (∀ caller ∈ rest, caller.index < id.index) ∧ Linked frame? rest

theorem Linked.drop {frame? : CallFrameId → Option CallFrame} {stack : List CallFrameId}
    (h : Linked frame? stack) (n : Nat) : Linked frame? (stack.drop n) := by
  induction n generalizing stack with
  | zero => exact h
  | succ n ih =>
    cases stack with
    | nil => exact h
    | cons id rest => exact ih h.2.2

theorem Linked.known {frame? : CallFrameId → Option CallFrame} {stack : List CallFrameId}
    (h : Linked frame? stack) {id : CallFrameId} (mem : id ∈ stack) : ∃ f, frame? id = some f := by
  induction stack with
  | nil => cases mem
  | cons top rest ih =>
    obtain ⟨⟨f, hf, _⟩, _, linked⟩ := h
    rcases List.mem_cons.mp mem with rfl | mem
    · exact ⟨f, hf⟩
    · exact ih linked mem

theorem Linked.mono {frame? later? : CallFrameId → Option CallFrame} {stack : List CallFrameId}
    (kept : ∀ id f, frame? id = some f → ∃ g, later? id = some g ∧ g.entry = f.entry)
    (h : Linked frame? stack) : Linked later? stack := by
  induction stack with
  | nil => trivial
  | cons id rest ih =>
    obtain ⟨⟨f, hf, parent, depth⟩, below, linked⟩ := h
    obtain ⟨g, hg, same⟩ := kept id f hf
    obtain ⟨sameParent, sameDepth, _⟩ := CallFrame.entry_eq_entry same
    exact ⟨⟨g, hg, sameParent.trans parent, sameDepth.trans depth⟩, below, ih linked⟩

namespace Replay

def frame? (r : Replay) (id : CallFrameId) : Option CallFrame := r.frames.reverse[id.index]?

@[simp] theorem map_entry_close (step : Nat) (closed : List CallFrameId)
    (frames : List CallFrame) :
    (close step closed frames).map CallFrame.entry = frames.map CallFrame.entry := by
  simp only [close, List.map_map]
  apply List.map_congr_left
  intro f _
  simp only [Function.comp_apply]
  split <;> rfl

/-- The state `s` comes after the state `r` of step `i`: frames keep their places
and their entries, and the newer segments start later. -/
structure Later (i : Nat) (r s : Replay) : Prop where
  frames : r.frames.map CallFrame.entry <:+ s.frames.map CallFrame.entry
  segments : ∃ newer, s.segments = newer ++ r.segments ∧ ∀ segment ∈ newer, i < segment.start

theorem Later.refl (i : Nat) (r : Replay) : Later i r r :=
  ⟨List.suffix_refl _, [], by simp⟩

theorem Later.trans {i j : Nat} {r s u : Replay} (hij : i ≤ j) (h : Later i r s)
    (h' : Later j s u) : Later i r u := by
  obtain ⟨newer, eq, starts⟩ := h.segments
  obtain ⟨newest, eq', starts'⟩ := h'.segments
  refine ⟨h.frames.trans h'.frames, newest ++ newer, by rw [eq', eq, List.append_assoc], ?_⟩
  intro segment mem
  rcases List.mem_append.mp mem with mem | mem
  · exact Nat.lt_of_le_of_lt hij (starts' segment mem)
  · exact starts segment mem

theorem Later.frame? {i : Nat} {r s : Replay} (h : Later i r s) {id : CallFrameId}
    {f : CallFrame} (hf : r.frame? id = some f) :
    ∃ g, s.frame? id = some g ∧ g.entry = f.entry := by
  have leading : r.frames.reverse.map CallFrame.entry <+: s.frames.reverse.map CallFrame.entry := by
    simpa only [List.map_reverse, List.reverse_prefix] using h.frames
  have found : (r.frames.reverse.map CallFrame.entry)[id.index]? = some f.entry := by
    rw [List.getElem?_map]
    exact congrArg (Option.map CallFrame.entry) hf
  obtain ⟨bound, value⟩ := List.getElem?_eq_some_iff.mp found
  have kept := List.prefix_iff_getElem?.mp leading id.index bound
  rw [value, List.getElem?_map] at kept
  exact Option.map_eq_some_iff.mp kept

end Replay

/-- Every change of depth is one of four, of which the last is malformed. -/
theorem depthChange_cases {caller : Nat} {before after : Step}
    {change : Except MalformedCause DepthChange}
    (h : depthChange caller before after = .ok change) :
    (after.depth = before.depth ∧ change = .ok .stay) ∨
    (after.depth = before.depth + 1 ∧ change = (enteredAddress caller before).map .enter) ∨
    (∃ returns, before.depth = after.depth + returns ∧ 0 < returns ∧
      change = .ok (.leave returns)) ∨
    (before.depth + 1 < after.depth ∧ change = .error (.depthJump before.depth after.depth)) := by
  unfold depthChange at h
  split at h
  · next same =>
    cases h
    exact .inl ⟨same, rfl⟩
  · obtain ⟨deeper, sum, h⟩ := Checked.bind_eq_ok.mp h
    obtain ⟨-, rfl⟩ := Checked.add_eq_ok.mp sum
    split at h
    · next entered =>
      cases h
      exact .inr (.inl ⟨entered, rfl⟩)
    · split at h
      · cases h
        exact .inr (.inr (.inl ⟨before.depth - after.depth, by omega, by omega, rfl⟩))
      · cases h
        exact .inr (.inr (.inr ⟨by omega, rfl⟩))

theorem exists_depthChange (caller : Nat) {before : Step} (after : Step)
    (bounded : before.depth + 1 < wordLimit) :
    ∃ change, depthChange caller before after = .ok change := by
  have deeper : Checked.add before.depth 1 = .ok (before.depth + 1) :=
    Checked.add_eq_ok.mpr ⟨bounded, rfl⟩
  simp only [depthChange, deeper, bind, Except.bind, pure, Except.pure]
  split
  · exact ⟨_, rfl⟩
  · split
    · exact ⟨_, rfl⟩
    · split <;> exact ⟨_, rfl⟩

namespace Replay

/-- The state after leaving `returns` frames right before `step`. -/
def left (r : Replay) (step returns : Nat) (top : CallFrameId) : Replay where
  frames := close step (r.stack.take returns) r.frames
  stack := r.stack.drop returns
  segments := ⟨step, top⟩ :: r.segments

theorem leave_cases (r : Replay) (step returns : Nat) :
    (∃ top, (r.stack.drop returns).head? = some top ∧
      r.leave step returns = .ok (r.left step returns top)) ∨
    (r.stack.length ≤ returns ∧ ∃ cause, r.leave step returns = .error cause) := by
  unfold leave left
  split
  · rename_i empty
    exact .inr ⟨List.drop_eq_nil_iff.mp empty, _, rfl⟩
  · rename_i top rest remaining
    exact .inl ⟨top, by rw [remaining]; rfl, by rw [remaining]⟩

theorem advance_eq_ok {r : Replay} {step : Nat} {before after : Step}
    {result : Except MalformedCause Replay} :
    r.advance step before after = .ok result ↔
      ∃ change, depthChange (step - 1) before after = .ok change ∧
        change.bind (r.apply step) = result := by
  unfold advance
  cases h : depthChange (step - 1) before after with
  | error fault => simp [bind, Except.bind]
  | ok change =>
    cases change <;> simp [bind, Except.bind, pure, Except.pure]

/-- An advance to `step` stays, enters a frame, or leaves some frames but not all. -/
theorem advance_cases {r s : Replay} {step : Nat} {before after : Step}
    (h : r.advance step before after = .ok (.ok s)) :
    (after.depth = before.depth ∧ s = r) ∨
    (∃ address, after.depth = before.depth + 1 ∧
      enteredAddress (step - 1) before = .ok address ∧ s = r.enter step address) ∨
    (∃ returns top, before.depth = after.depth + returns ∧ 0 < returns ∧
      (r.stack.drop returns).head? = some top ∧ s = r.left step returns top) := by
  obtain ⟨change, changed, applied⟩ := advance_eq_ok.mp h
  rcases depthChange_cases changed with ⟨same, rfl⟩ | ⟨entered, rfl⟩ |
    ⟨returns, deeper, positive, rfl⟩ | ⟨_, rfl⟩
  · cases applied
    exact .inl ⟨same, rfl⟩
  · cases opened : enteredAddress (step - 1) before with
    | error cause =>
      rw [opened] at applied
      cases applied
    | ok address =>
      rw [opened] at applied
      cases applied
      exact .inr (.inl ⟨address, entered, rfl, rfl⟩)
  · rcases r.leave_cases step returns with ⟨top, remaining, eq⟩ | ⟨_, cause, eq⟩
    · have same : Except.ok (r.left step returns top) = Except.ok s := eq.symm.trans applied
      cases same
      exact .inr (.inr ⟨returns, top, deeper, positive, remaining, rfl⟩)
    · have same : Except.error cause = Except.ok s := eq.symm.trans applied
      cases same
  · cases applied

/-- An advance stops where nothing can be entered, where more is left than is
open, and where the depth grows by more than one. -/
theorem advance_error_cases {r : Replay} {step : Nat} {before after : Step}
    {cause : MalformedCause} (h : r.advance step before after = .ok (.error cause)) :
    (after.depth = before.depth + 1 ∧ enteredAddress (step - 1) before = .error cause) ∨
    (∃ returns, before.depth = after.depth + returns ∧ 0 < returns ∧
      r.stack.length ≤ returns) ∨
    before.depth + 1 < after.depth := by
  obtain ⟨change, changed, applied⟩ := advance_eq_ok.mp h
  rcases depthChange_cases changed with ⟨same, rfl⟩ | ⟨entered, rfl⟩ |
    ⟨returns, deeper, positive, rfl⟩ | ⟨jump, rfl⟩
  · cases applied
  · cases opened : enteredAddress (step - 1) before with
    | error cause' =>
      rw [opened] at applied
      cases applied
      exact .inl ⟨entered, rfl⟩
    | ok address =>
      rw [opened] at applied
      cases applied
  · rcases r.leave_cases step returns with ⟨top, _, eq⟩ | ⟨tooMany, _, _⟩
    · have same : Except.ok (r.left step returns top) = Except.error cause := eq.symm.trans applied
      cases same
    · exact .inr (.inl ⟨returns, deeper, positive, tooMany⟩)
  · exact .inr (.inr jump)

theorem frame?_enter {r : Replay} {id : CallFrameId} {f : CallFrame} (step : Nat)
    (address : ExecutingAddress) (h : r.frame? id = some f) :
    (r.enter step address).frame? id = some f := by
  have bound : id.index < r.frames.reverse.length := (List.getElem?_eq_some_iff.mp h).1
  simp only [frame?, enter, List.reverse_cons]
  rw [List.getElem?_append_left bound]
  exact h

theorem frame?_enter_self (r : Replay) (step : Nat) (address : ExecutingAddress) :
    (r.enter step address).frame? ⟨r.frames.length⟩ =
      some ⟨⟨r.frames.length⟩, r.stack.head?, r.stack.length, address, step, none⟩ := by
  simp [frame?, enter]

theorem later_enter (r : Replay) (i : Nat) (address : ExecutingAddress) :
    Later i r (r.enter (i + 1) address) where
  frames := ⟨[_], rfl⟩
  segments := ⟨[_], rfl, by simp⟩

theorem later_left (r : Replay) (i returns : Nat) (top : CallFrameId) :
    Later i r (r.left (i + 1) returns top) where
  frames := by simp [left]
  segments := ⟨[_], rfl, by simp⟩

theorem later_of_advance {r s : Replay} {i : Nat} {before after : Step}
    (h : r.advance (i + 1) before after = .ok (.ok s)) : Later i r s := by
  rcases advance_cases h with ⟨-, rfl⟩ | ⟨address, -, -, rfl⟩ | ⟨returns, top, -, -, -, rfl⟩
  · exact .refl i s
  · exact r.later_enter i address
  · exact r.later_left i returns top

/-- `r` is the state of the replay at a step, with all changes up to it made. -/
inductive Reaches (t : Trace) : Nat → Replay → Prop where
  | start : t.steps ≠ [] → Reaches t 0 (.start t.root)
  | next {i : Nat} {r s : Replay} {before after : Step} :
      Reaches t i r → t.steps[i]? = some before → t.steps[i + 1]? = some after →
      r.advance (i + 1) before after = .ok (.ok s) → Reaches t (i + 1) s

/-- The state of an earlier step was passed on the way. -/
theorem Reaches.earlier {t : Trace} {i j : Nat} {s : Replay} (h : Reaches t j s) (hij : i ≤ j) :
    ∃ r, Reaches t i r ∧ Later i r s := by
  induction h with
  | start nonempty =>
    obtain rfl : i = 0 := Nat.le_zero.mp hij
    exact ⟨_, .start nonempty, .refl 0 _⟩
  | @next j r s before after reached hb ha advanced ih =>
    rcases Nat.le_succ_iff.mp hij with hij | rfl
    · obtain ⟨q, earlier, later⟩ := ih hij
      exact ⟨q, earlier, later.trans hij (later_of_advance advanced)⟩
    · exact ⟨s, .next reached hb ha advanced, .refl _ s⟩

/-- What holds of the state of every step: the stack is linked, and the newest
segment belongs to its top. -/
structure Coherent (i : Nat) (r : Replay) : Prop where
  linked : Linked r.frame? r.stack
  top : ∃ segment older, r.segments = segment :: older ∧ segment.start ≤ i ∧
    r.stack.head? = some segment.frame

theorem coherent_start (root : ExecutingAddress) : Coherent 0 (.start root) where
  linked := ⟨⟨_, rfl, rfl, rfl⟩, by simp, trivial⟩
  top := ⟨_, _, rfl, Nat.le_refl 0, rfl⟩

theorem Coherent.known {i : Nat} {r : Replay} (h : Coherent i r) {id : CallFrameId}
    (mem : id ∈ r.stack) : id.index < r.frames.length := by
  obtain ⟨f, hf⟩ := h.linked.known mem
  simpa using (List.getElem?_eq_some_iff.mp hf).1

theorem Coherent.enter {i : Nat} {r : Replay} (h : Coherent i r) (step : Nat)
    (address : ExecutingAddress) : Coherent step (r.enter step address) where
  linked := by
    refine ⟨⟨_, r.frame?_enter_self step address, rfl, rfl⟩, fun _ mem => h.known mem, ?_⟩
    exact h.linked.mono fun id f hf => ⟨f, frame?_enter step address hf, rfl⟩
  top := ⟨_, _, rfl, Nat.le_refl step, rfl⟩

theorem Coherent.left {i : Nat} {r : Replay} (h : Coherent i r) {returns : Nat}
    {top : CallFrameId} (remaining : (r.stack.drop returns).head? = some top) :
    Coherent (i + 1) (r.left (i + 1) returns top) where
  linked := (h.linked.drop returns).mono fun _ _ hf => (r.later_left i returns top).frame? hf
  top := ⟨_, _, rfl, Nat.le_refl (i + 1), remaining⟩

theorem Reaches.coherent {t : Trace} {i : Nat} {r : Replay} (h : Reaches t i r) :
    Coherent i r := by
  induction h with
  | start => exact coherent_start t.root
  | @next i r s before after _ _ _ advanced ih =>
    rcases advance_cases advanced with ⟨-, rfl⟩ | ⟨address, -, -, rfl⟩ |
      ⟨returns, top, -, -, remaining, rfl⟩
    · obtain ⟨segment, older, eq, starts, top⟩ := ih.top
      exact ⟨ih.linked, segment, older, eq, Nat.le_succ_of_le starts, top⟩
    · exact ih.enter (i + 1) address
    · exact ih.left remaining

theorem Reaches.bound {t : Trace} {i : Nat} {r : Replay} (h : Reaches t i r) :
    i < t.steps.length := by
  cases h with
  | start nonempty => exact List.length_pos_iff.mpr nonempty
  | next _ _ ha _ => exact (List.getElem?_eq_some_iff.mp ha).1

theorem step_of_drop {steps rest : List Step} {i : Nat} {s : Step}
    (split : steps.drop i = s :: rest) : steps[i]? = some s ∧ steps.drop (i + 1) = rest := by
  constructor
  · rw [← List.head?_drop, split]
    rfl
  · rw [← List.tail_drop, split]
    rfl

/-- How the replay of a trace ends: at the last step, or right before the first
step whose change of depth is malformed. -/
def Ends (t : Trace) (r : Replay) : Option Malformation → Prop
  | none => ∃ i, i + 1 = t.steps.length ∧ Reaches t i r
  | some m => ∃ i before after, m.step = i + 1 ∧ Reaches t i r ∧ t.steps[i]? = some before ∧
      t.steps[i + 1]? = some after ∧ r.advance (i + 1) before after = .ok (.error m.cause)

/-- A replay that comes to a result has come to the end, or to a malformed step. -/
theorem ends_of_run {t : Trace} {rest : List Step} {i : Nat} {r s : Replay} {before : Step}
    {malformed : Option Malformation} (reached : Reaches t i r)
    (split : t.steps.drop i = before :: rest)
    (ran : r.run (i + 1) before rest = .ok (s, malformed)) : Ends t s malformed := by
  obtain ⟨hb, tail⟩ := step_of_drop split
  induction rest generalizing i r before with
  | nil =>
    cases ran
    have last : t.steps.length ≤ i + 1 := List.drop_eq_nil_iff.mp tail
    exact ⟨i, by have := reached.bound; omega, reached⟩
  | cons after rest ih =>
    obtain ⟨ha, tail'⟩ := step_of_drop tail
    obtain ⟨result, advanced, ran⟩ := Checked.bind_eq_ok.mp ran
    cases result with
    | error cause =>
      cases ran
      exact ⟨i, before, after, rfl, reached, hb, ha, advanced⟩
    | ok next => exact ih (.next reached hb ha advanced) tail ran ha tail'

/-- While the depths stay below the word limit, a replay comes to a result. -/
theorem exists_run_eq_ok {rest : List Step} {before : Step} (r : Replay) (step : Nat)
    (bounded : ∀ s ∈ before :: rest, s.depth + 1 < wordLimit) :
    ∃ result, r.run step before rest = .ok result := by
  induction rest generalizing r step before with
  | nil => exact ⟨(r, none), rfl⟩
  | cons after rest ih =>
    obtain ⟨change, changed⟩ :=
      exists_depthChange (step - 1) after (bounded before List.mem_cons_self)
    have advanced : r.advance step before after = .ok (change.bind (r.apply step)) :=
      advance_eq_ok.mpr ⟨change, changed, rfl⟩
    cases outcome : change.bind (r.apply step) with
    | error cause =>
      rw [outcome] at advanced
      exact ⟨_, Checked.bind_eq_ok.mpr ⟨.error cause, advanced, rfl⟩⟩
    | ok next =>
      rw [outcome] at advanced
      obtain ⟨result, ran⟩ := ih next (step + 1) fun s mem => bounded s (List.mem_cons_of_mem _ mem)
      exact ⟨result, Checked.bind_eq_ok.mpr ⟨.ok next, advanced, ran⟩⟩

theorem exists_run {t : Trace} (bounded : ∀ s ∈ t.steps, s.depth + 1 < wordLimit)
    {rest : List Step} {i : Nat} {r : Replay} {before : Step} (reached : Reaches t i r)
    (split : t.steps.drop i = before :: rest) :
    ∃ s malformed, r.run (i + 1) before rest = .ok (s, malformed) ∧ Ends t s malformed := by
  obtain ⟨⟨s, malformed⟩, ran⟩ := exists_run_eq_ok r (i + 1) fun step mem =>
    bounded step (List.mem_of_mem_drop (split ▸ mem))
  exact ⟨s, malformed, ran, ends_of_run reached split ran⟩

end Replay

end TraceDebug

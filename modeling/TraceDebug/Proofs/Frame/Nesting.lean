import Mathlib.Data.List.Nodup
import TraceDebug.Proofs.Frame.Agreement

/-!
# Call frames are nested

The frames of an index form one tree: each frame but the outermost was entered from
another one, and of two frames the older was left before the newer was entered, or it
is around the newer. A replay keeps this, although it closes frames long after it has
entered them and may stop anywhere.
-/

namespace TraceDebug

theorem Linked.descending {frame? : CallFrameId → Option CallFrame} {stack : List CallFrameId}
    (h : Linked frame? stack) : stack.Pairwise fun id caller => caller.index < id.index := by
  induction stack with
  | nil => exact .nil
  | cons id rest ih => exact List.pairwise_cons.mpr ⟨h.2.1, ih h.2.2⟩

/-- What is left lies above what stays open. -/
theorem Linked.drop_lt_take {frame? : CallFrameId → Option CallFrame} {stack : List CallFrameId}
    (h : Linked frame? stack) {n : Nat} {id caller : CallFrameId} (left : id ∈ stack.take n)
    (stays : caller ∈ stack.drop n) : caller.index < id.index := by
  have descending := h.descending
  rw [← List.take_append_drop n stack, List.pairwise_append] at descending
  exact descending.2.2 id left caller stays

/-- Below the newest frame lie other frames. -/
theorem Linked.head?_drop_ne {frame? : CallFrameId → Option CallFrame} {stack : List CallFrameId}
    (h : Linked frame? stack) {n : Nat} (positive : 0 < n) {newest top : CallFrameId}
    (first : stack.head? = some newest) (remaining : (stack.drop n).head? = some top) :
    top ≠ newest := by
  rintro rfl
  have leaves : top ∈ stack.take n := by
    apply List.mem_of_head?
    rw [List.head?_take, if_neg (Nat.ne_of_gt positive)]
    exact first
  have lower := h.drop_lt_take leaves (List.mem_of_head? remaining)
  exact Nat.lt_irrefl _ lower

theorem Linked.depth_lt {frame? : CallFrameId → Option CallFrame} {stack : List CallFrameId}
    (h : Linked frame? stack) {f : CallFrame} {id : CallFrameId} (mem : id ∈ stack)
    (hf : frame? id = some f) : f.depth < stack.length := by
  induction stack with
  | nil => cases mem
  | cons top rest ih =>
    obtain ⟨⟨g, hg, -, depth⟩, -, linked⟩ := h
    rw [List.length_cons]
    rcases List.mem_cons.mp mem with rfl | mem
    · obtain rfl : g = f := Option.some.inj (hg.symm.trans hf)
      omega
    · exact Nat.lt_succ_of_lt (ih linked mem)

namespace CallFrame

/-- The frame `f` was entered from the frame `g`, by the step right before. -/
structure EnteredFrom (t : Trace) (f g : CallFrame) : Prop where
  parent : f.parent = some g.id
  number : g.id.index < f.id.index
  depth : f.depth = g.depth + 1
  later : g.enteredAt < f.enteredAt
  opened : ∃ s, t.step? (f.enteredAt - 1) = some s ∧ s.opened? (f.enteredAt - 1) = some f.address

/-- The frame `f` was left when `g`, which it did not enter, was not yet entered. -/
structure LeftBefore (f g : CallFrame) : Prop where
  left : ∃ exit, f.exitedAt = some exit ∧ exit ≤ g.enteredAt
  stranger : g.parent ≠ some f.id

/-- The frame `g` lies below `f`, and it was left when `f` was, if not before. -/
structure Around (f g : CallFrame) : Prop where
  depth : f.depth < g.depth
  within : ∀ exit, f.exitedAt = some exit → ∃ inner, g.exitedAt = some inner ∧ inner ≤ exit

theorem contains_iff {f : CallFrame} {i : Nat} :
    f.contains i = true ↔ f.enteredAt ≤ i ∧ ∀ exit, f.exitedAt = some exit → i < exit := by
  unfold contains
  cases f.exitedAt <;> simp

theorem LeftBefore.disjoint {f g : CallFrame} (h : f.LeftBefore g) {i : Nat}
    (inside : f.contains i = true) : ¬ g.contains i = true := by
  intro inside'
  obtain ⟨exit, left, le⟩ := h.left
  have before := (contains_iff.mp inside).2 exit left
  have entered := (contains_iff.mp inside').1
  omega

/-- The frame as it is after some frames were left right before `step`. -/
def closeAmong (step : Nat) (ids : List CallFrameId) (f : CallFrame) : CallFrame :=
  if f.id ∈ ids then { f with exitedAt := some step } else f

theorem exitedAt_closeAmong (step : Nat) (ids : List CallFrameId) (f : CallFrame) :
    (f.closeAmong step ids).exitedAt = if f.id ∈ ids then some step else f.exitedAt := by
  unfold closeAmong
  split <;> rfl

@[simp] theorem id_closeAmong (step : Nat) (ids : List CallFrameId) (f : CallFrame) :
    (f.closeAmong step ids).id = f.id := by
  unfold closeAmong
  split <;> rfl

@[simp] theorem parent_closeAmong (step : Nat) (ids : List CallFrameId) (f : CallFrame) :
    (f.closeAmong step ids).parent = f.parent := by
  unfold closeAmong
  split <;> rfl

@[simp] theorem depth_closeAmong (step : Nat) (ids : List CallFrameId) (f : CallFrame) :
    (f.closeAmong step ids).depth = f.depth := by
  unfold closeAmong
  split <;> rfl

@[simp] theorem enteredAt_closeAmong (step : Nat) (ids : List CallFrameId) (f : CallFrame) :
    (f.closeAmong step ids).enteredAt = f.enteredAt := by
  unfold closeAmong
  split <;> rfl

/-- Closing a frame that is open does not change which earlier steps it contains. -/
theorem contains_closeAmong {f : CallFrame} {step i : Nat} {ids : List CallFrameId}
    (isOpen : f.id ∈ ids → f.exitedAt = none) (earlier : i < step) :
    (f.closeAmong step ids).contains i = true ↔ f.contains i = true := by
  rw [contains_iff, contains_iff, exitedAt_closeAmong, enteredAt_closeAmong]
  split
  · next mem => simp [isOpen mem, earlier]
  · exact Iff.rfl

end CallFrame

namespace Replay

theorem exists_of_mem_left {r : Replay} {step returns : Nat} {top : CallFrameId} {g : CallFrame}
    (mem : g ∈ (r.left step returns top).frames) :
    ∃ f ∈ r.frames, f.closeAmong step (r.stack.take returns) = g :=
  List.mem_map.mp mem

/-- Frames by the step `i`, the newest first, as far as their entries go: they are numbered
in the order in which they were entered, and each but the first was entered from another. -/
structure Entries (t : Trace) (i : Nat) (frames : List CallFrame) : Prop where
  numbered : frames.map (·.id.index) = (List.range frames.length).reverse
  ordered : frames.Pairwise fun newer older => older.enteredAt < newer.enteredAt
  entered : ∀ f ∈ frames, f.enteredAt ≤ i
  outermost : ∃ f ∈ frames, f.id.index = 0 ∧ f.parent = none ∧ f.depth = 0 ∧ f.address = t.root ∧
    f.enteredAt = 0
  opened : ∀ f ∈ frames, f.id.index ≠ 0 → ∃ g ∈ frames, f.EnteredFrom t g

theorem entries_start (t : Trace) : Entries t 0 ((start t.root).frames.map CallFrame.entry) where
  numbered := rfl
  ordered := List.pairwise_singleton _ _
  entered := by simp [start, CallFrame.entry]
  outermost := ⟨_, List.mem_singleton_self _, rfl, rfl, rfl, rfl, rfl⟩
  opened := by simp [start, CallFrame.entry]

theorem Entries.later {t : Trace} {i j : Nat} {frames : List CallFrame} (h : Entries t i frames)
    (hij : i ≤ j) : Entries t j frames :=
  { h with entered := fun f mem => Nat.le_trans (h.entered f mem) hij }

theorem Entries.cons {t : Trace} {i : Nat} {frames : List CallFrame} (h : Entries t i frames)
    {f : CallFrame} (number : f.id.index = frames.length) (now : f.enteredAt = i + 1)
    (opened : ∃ g ∈ frames, f.EnteredFrom t g) : Entries t (i + 1) (f :: frames) where
  numbered := by simp [List.range_succ, number, h.numbered]
  ordered := by
    refine List.pairwise_cons.mpr ⟨?_, h.ordered⟩
    intro g mem
    rw [now]
    exact Nat.lt_succ_of_le (h.entered g mem)
  entered := by
    intro g mem
    rcases List.mem_cons.mp mem with rfl | mem
    · exact Nat.le_of_eq now
    · exact Nat.le_succ_of_le (h.entered g mem)
  outermost := by
    obtain ⟨g, mem, first⟩ := h.outermost
    exact ⟨g, List.mem_cons_of_mem _ mem, first⟩
  opened := by
    intro g mem later
    rcases List.mem_cons.mp mem with rfl | mem
    · obtain ⟨p, known, entered⟩ := opened
      exact ⟨p, List.mem_cons_of_mem _ known, entered⟩
    · obtain ⟨p, known, entered⟩ := h.opened g mem later
      exact ⟨p, List.mem_cons_of_mem _ known, entered⟩

/-- The number of a frame is its place. -/
theorem Entries.index_eq {t : Trace} {i : Nat} {frames : List CallFrame} (h : Entries t i frames)
    {k : Nat} {f : CallFrame} (found : frames.reverse[k]? = some f) : f.id.index = k := by
  have numbers : frames.reverse.map (·.id.index) = List.range frames.length := by
    rw [List.map_reverse, h.numbered, List.reverse_reverse]
  have inside : k < frames.length := by
    simpa using (List.getElem?_eq_some_iff.mp found).1
  have placed : (frames.reverse.map (·.id.index))[k]? = some k := by
    rw [numbers, List.getElem?_range inside]
  rw [List.getElem?_map, found] at placed
  exact Option.some.inj placed

theorem Entries.frame? {t : Trace} {i : Nat} {r : Replay}
    (h : Entries t i (r.frames.map CallFrame.entry)) {id : CallFrameId} {f : CallFrame}
    (found : r.frame? id = some f) : f ∈ r.frames ∧ f.id = id := by
  have placed : (r.frames.map CallFrame.entry).reverse[id.index]? = some f.entry := by
    rw [← List.map_reverse, List.getElem?_map]
    exact congrArg (Option.map CallFrame.entry) found
  have number : f.entry.id.index = id.index := h.index_eq placed
  exact ⟨List.mem_reverse.mp (List.mem_of_getElem? found), congrArg CallFrameId.mk number⟩

theorem Entries.frame?_of_mem {t : Trace} {i : Nat} {r : Replay}
    (h : Entries t i (r.frames.map CallFrame.entry)) {f : CallFrame} (mem : f ∈ r.frames) :
    r.frame? f.id = some f := by
  obtain ⟨k, found⟩ := List.mem_iff_getElem?.mp (List.mem_reverse.mpr mem)
  have numbered : r.frame? ⟨k⟩ = some f := found
  have same : f.id = ⟨k⟩ := (h.frame? numbered).2
  rw [same]
  exact numbered

/-- What an advance enters was opened by the step before. -/
theorem Entries.enter {t : Trace} {i : Nat} {r : Replay}
    (h : Entries t i (r.frames.map CallFrame.entry)) (coherent : Coherent i r) {before : Step}
    (hb : t.steps[i]? = some before) {address : ExecutingAddress}
    (entered : enteredAddress i before = .ok address) :
    Entries t (i + 1) ((r.enter (i + 1) address).frames.map CallFrame.entry) := by
  obtain ⟨segment, -, -, -, top⟩ := coherent.top
  obtain ⟨rest, stack⟩ := List.head?_eq_some_iff.mp top
  have linked := coherent.linked
  rw [stack] at linked
  obtain ⟨⟨g, hg, -, depth⟩, -, -⟩ := linked
  obtain ⟨mem, same⟩ := h.frame? hg
  have opens : before.opened? i = some address := by
    rw [← toOption_enteredAddress, entered]
    rfl
  apply h.cons
  · exact (List.length_map _).symm
  · rfl
  · refine ⟨g.entry, List.mem_map_of_mem mem, ?_⟩
    exact {
      parent := top.trans (congrArg some same.symm)
      number := by
        have known := coherent.known (stack ▸ List.mem_cons_self)
        rw [← same] at known
        exact known
      depth := by
        have height : r.stack.length = g.depth + 1 := by rw [stack, List.length_cons, depth]
        exact height
      later := Nat.lt_succ_of_le (h.entered g.entry (List.mem_map_of_mem mem))
      opened := ⟨before, hb, opens⟩ }

theorem Reaches.entries {t : Trace} {i : Nat} {r : Replay} (h : Reaches t i r) :
    Entries t i (r.frames.map CallFrame.entry) := by
  induction h with
  | start => exact entries_start t
  | @next i r s before after reached hb _ advanced ih =>
    rcases advance_cases advanced with ⟨-, rfl⟩ | ⟨address, -, entered, rfl⟩ |
      ⟨returns, top, -, -, -, rfl⟩
    · exact ih.later (Nat.le_succ i)
    · exact ih.enter reached.coherent hb entered
    · have kept : (r.left (i + 1) returns top).frames.map CallFrame.entry =
          r.frames.map CallFrame.entry := by simp [left]
      rw [kept]
      exact ih.later (Nat.le_succ i)

theorem Entries.eq_of_id_eq {t : Trace} {i : Nat} {r : Replay}
    (h : Entries t i (r.frames.map CallFrame.entry)) {f g : CallFrame} (mem : f ∈ r.frames)
    (mem' : g ∈ r.frames) (same : f.id = g.id) : f = g := by
  have found := h.frame?_of_mem mem
  rw [same, h.frame?_of_mem mem'] at found
  exact (Option.some.inj found).symm

theorem Entries.eq_of_enteredAt_eq {t : Trace} {i : Nat} {r : Replay}
    (h : Entries t i (r.frames.map CallFrame.entry)) {f g : CallFrame} (mem : f ∈ r.frames)
    (mem' : g ∈ r.frames) (same : f.enteredAt = g.enteredAt) : f = g := by
  have distinct : (r.frames.map (·.enteredAt)).Nodup := by
    apply List.pairwise_map.mpr
    exact (List.pairwise_map.mp h.ordered).imp Nat.ne_of_gt
  exact List.inj_on_of_nodup_map distinct mem mem' same

/-- A frame is the outermost one, or it was entered from another frame. -/
theorem Entries.cases {t : Trace} {i : Nat} {r : Replay}
    (h : Entries t i (r.frames.map CallFrame.entry)) {f : CallFrame} (mem : f ∈ r.frames) :
    (f.id = ⟨0⟩ ∧ f.parent = none ∧ f.depth = 0 ∧ f.address = t.root ∧ f.enteredAt = 0) ∨
      f.id ≠ ⟨0⟩ ∧ ∃ g ∈ r.frames, f.EnteredFrom t g := by
  by_cases first : f.id = ⟨0⟩
  · obtain ⟨e, known, number, facts⟩ := h.outermost
    obtain ⟨g, mem', rfl⟩ := List.mem_map.mp known
    have same : g.id = ⟨0⟩ := congrArg CallFrameId.mk number
    obtain rfl := h.eq_of_id_eq mem mem' (first.trans same.symm)
    exact .inl ⟨first, facts⟩
  · refine .inr ⟨first, ?_⟩
    have later : f.entry.id.index ≠ 0 := fun eq => first (congrArg CallFrameId.mk eq)
    obtain ⟨e, known, entered⟩ := h.opened f.entry (List.mem_map_of_mem mem) later
    obtain ⟨g, mem', rfl⟩ := List.mem_map.mp known
    exact ⟨g, mem', entered.parent, entered.number, entered.depth, entered.later, entered.opened⟩

/-- Exits by the step `i`: the frames on the stack are those that are open, and of two
frames the older was left before the newer was entered, or it is around the newer. -/
structure Exits (i : Nat) (r : Replay) : Prop where
  isOpen : ∀ f ∈ r.frames, f.exitedAt = none ↔ f.id ∈ r.stack
  exited : ∀ f ∈ r.frames, ∀ exit, f.exitedAt = some exit → f.enteredAt < exit ∧ exit ≤ i
  nested : ∀ f ∈ r.frames, ∀ g ∈ r.frames, f.id.index < g.id.index → f.LeftBefore g ∨ f.Around g
  changes : r.segments.IsChain fun newer older => newer.frame ≠ older.frame

theorem exits_start (root : ExecutingAddress) : Exits 0 (.start root) where
  isOpen := by simp [start]
  exited := by simp [start]
  nested := by simp [start]
  changes := .singleton _

theorem Exits.later {i j : Nat} {r : Replay} (h : Exits i r) (hij : i ≤ j) : Exits j r where
  isOpen := h.isOpen
  exited := by
    intro f mem exit left
    obtain ⟨lt, le⟩ := h.exited f mem exit left
    exact ⟨lt, Nat.le_trans le hij⟩
  nested := h.nested
  changes := h.changes

section
variable {t : Trace} {i : Nat} {r : Replay} {f g : CallFrame}

/-- A frame that is entered from the newest one lies below all frames that are open. -/
theorem Exits.leftBefore_or_around (h : Exits i r)
    (entries : Entries t i (r.frames.map CallFrame.entry)) (coherent : Coherent i r)
    (mem : f ∈ r.frames) (parent : g.parent = r.stack.head?) (depth : g.depth = r.stack.length)
    (entered : g.enteredAt = i + 1) : f.LeftBefore g ∨ f.Around g := by
  by_cases stacked : f.id ∈ r.stack
  · have isOpen := (h.isOpen f mem).mpr stacked
    refine .inr ⟨?_, by simp [isOpen]⟩
    rw [depth]
    exact coherent.linked.depth_lt stacked (entries.frame?_of_mem mem)
  · obtain ⟨exit, left⟩ := Option.ne_none_iff_exists'.mp (mt (h.isOpen f mem).mp stacked)
    refine .inl ⟨⟨exit, left, ?_⟩, ?_⟩
    · rw [entered]
      exact Nat.le_succ_of_le (h.exited f mem exit left).2
    · rw [parent]
      exact fun newest => stacked (List.mem_of_head? newest)

theorem Entries.id_lt (h : Entries t i (r.frames.map CallFrame.entry)) (mem : f ∈ r.frames) :
    f.id.index < r.frames.length := by
  obtain ⟨inside, -⟩ := List.getElem?_eq_some_iff.mp (h.frame?_of_mem mem)
  rwa [List.length_reverse] at inside

theorem Exits.enter (h : Exits i r) (entries : Entries t i (r.frames.map CallFrame.entry))
    (coherent : Coherent i r) (address : ExecutingAddress) :
    Exits (i + 1) (r.enter (i + 1) address) where
  isOpen := by
    intro f mem
    rcases List.mem_cons.mp mem with rfl | mem
    · simp [Replay.enter]
    · have older : f.id ≠ ⟨r.frames.length⟩ := fun same =>
        Nat.ne_of_lt (entries.id_lt mem) (congrArg CallFrameId.index same)
      rw [h.isOpen f mem]
      simp [Replay.enter, older]
  exited := by
    intro f mem exit left
    rcases List.mem_cons.mp mem with rfl | mem
    · cases left
    · obtain ⟨lt, le⟩ := h.exited f mem exit left
      exact ⟨lt, Nat.le_succ_of_le le⟩
  nested := by
    intro f mem g mem' older
    rcases List.mem_cons.mp mem with rfl | mem <;> rcases List.mem_cons.mp mem' with rfl | mem'
    · exact absurd older (Nat.lt_irrefl _)
    · exact absurd older (Nat.lt_asymm (entries.id_lt mem'))
    · exact h.leftBefore_or_around entries coherent mem rfl rfl rfl
    · exact h.nested f mem g mem' older
  changes := by
    obtain ⟨segment, rest, segments, -, top⟩ := coherent.top
    have fresh : (⟨r.frames.length⟩ : CallFrameId) ≠ segment.frame := by
      intro same
      have known := coherent.known (List.mem_of_head? top)
      rw [← same] at known
      exact absurd known (Nat.lt_irrefl _)
    have chained := h.changes
    rw [segments] at chained
    simp only [Replay.enter, segments]
    exact .cons_cons fresh chained

/-- A frame that was left is not left again. -/
theorem Exits.not_mem_take (h : Exits i r) (mem : f ∈ r.frames) {exit : Nat}
    (left : f.exitedAt = some exit) (n : Nat) : f.id ∉ r.stack.take n := by
  intro leaves
  have isOpen := (h.isOpen f mem).mpr (List.mem_of_mem_take leaves)
  cases left.symm.trans isOpen

theorem Exits.exitedAt_closeAmong (h : Exits i r) (mem : f ∈ r.frames) {exit : Nat}
    (left : f.exitedAt = some exit) (n : Nat) :
    (f.closeAmong (i + 1) (r.stack.take n)).exitedAt = some exit := by
  rw [CallFrame.exitedAt_closeAmong, if_neg (h.not_mem_take mem left n)]
  exact left

theorem Exits.isOpen_closeAmong (h : Exits i r) (coherent : Coherent i r) (mem : f ∈ r.frames)
    (n : Nat) :
    (f.closeAmong (i + 1) (r.stack.take n)).exitedAt = none ↔ f.id ∈ r.stack.drop n := by
  rw [CallFrame.exitedAt_closeAmong]
  by_cases leaves : f.id ∈ r.stack.take n
  · have apart : f.id ∉ r.stack.drop n := fun stays =>
      Nat.lt_irrefl _ (coherent.linked.drop_lt_take leaves stays)
    simp [leaves, apart]
  · have stack := List.take_append_drop n r.stack
    rw [if_neg leaves, h.isOpen f mem, ← stack, List.mem_append, stack]
    exact or_iff_right leaves

theorem Exits.exited_closeAmong (h : Exits i r)
    (entries : Entries t i (r.frames.map CallFrame.entry)) (mem : f ∈ r.frames) {n exit : Nat}
    (left : (f.closeAmong (i + 1) (r.stack.take n)).exitedAt = some exit) :
    f.enteredAt < exit ∧ exit ≤ i + 1 := by
  rw [CallFrame.exitedAt_closeAmong] at left
  split at left
  · cases left
    have entered : f.enteredAt ≤ i := entries.entered f.entry (List.mem_map_of_mem mem)
    exact ⟨Nat.lt_succ_of_le entered, Nat.le_refl _⟩
  · obtain ⟨lt, le⟩ := h.exited f mem exit left
    exact ⟨lt, Nat.le_succ_of_le le⟩

/-- With a frame all newer ones are left, unless they were left before. -/
theorem Exits.exists_exit_of_newer (h : Exits i r)
    (entries : Entries t i (r.frames.map CallFrame.entry)) (coherent : Coherent i r) {n : Nat}
    (leaves : f.id ∈ r.stack.take n) (mem : g ∈ r.frames) (newer : f.id.index < g.id.index) :
    ∃ exit, (g.closeAmong (i + 1) (r.stack.take n)).exitedAt = some exit ∧ exit ≤ i + 1 := by
  have unkept : g.id ∉ r.stack.drop n := fun stays =>
    Nat.lt_asymm newer (coherent.linked.drop_lt_take leaves stays)
  obtain ⟨exit, left⟩ :=
    Option.ne_none_iff_exists'.mp (mt (h.isOpen_closeAmong coherent mem n).mp unkept)
  exact ⟨exit, left, (h.exited_closeAmong entries mem left).2⟩

theorem Exits.leftBefore_closeAmong (h : Exits i r) (mem : f ∈ r.frames) (before : f.LeftBefore g)
    (n : Nat) :
    (f.closeAmong (i + 1) (r.stack.take n)).LeftBefore
      (g.closeAmong (i + 1) (r.stack.take n)) where
  left := by
    obtain ⟨exit, left, le⟩ := before.left
    rw [CallFrame.enteredAt_closeAmong]
    exact ⟨exit, h.exitedAt_closeAmong mem left n, le⟩
  stranger := by simpa using before.stranger

theorem Exits.around_closeAmong (h : Exits i r)
    (entries : Entries t i (r.frames.map CallFrame.entry)) (coherent : Coherent i r)
    (mem : g ∈ r.frames) (newer : f.id.index < g.id.index) (around : f.Around g) (n : Nat) :
    (f.closeAmong (i + 1) (r.stack.take n)).Around (g.closeAmong (i + 1) (r.stack.take n)) where
  depth := by simpa using around.depth
  within := by
    intro exit left
    rw [CallFrame.exitedAt_closeAmong] at left
    split at left
    · next leaves =>
      cases left
      exact h.exists_exit_of_newer entries coherent leaves mem newer
    · obtain ⟨inner, left', le⟩ := around.within exit left
      exact ⟨inner, h.exitedAt_closeAmong mem left' n, le⟩

/-- What is left was open, and it lies on top of what stays open. -/
theorem Exits.left (h : Exits i r) (entries : Entries t i (r.frames.map CallFrame.entry))
    (coherent : Coherent i r) {returns : Nat} {top : CallFrameId} (positive : 0 < returns)
    (remaining : (r.stack.drop returns).head? = some top) :
    Exits (i + 1) (r.left (i + 1) returns top) where
  isOpen := by
    intro g mem
    obtain ⟨f, known, rfl⟩ := exists_of_mem_left mem
    rw [CallFrame.id_closeAmong]
    exact h.isOpen_closeAmong coherent known returns
  exited := by
    intro g mem exit left
    obtain ⟨f, known, rfl⟩ := exists_of_mem_left mem
    rw [CallFrame.enteredAt_closeAmong]
    exact h.exited_closeAmong entries known left
  nested := by
    intro f' mem g' mem' older
    obtain ⟨f, known, rfl⟩ := exists_of_mem_left mem
    obtain ⟨g, known', rfl⟩ := exists_of_mem_left mem'
    rw [CallFrame.id_closeAmong, CallFrame.id_closeAmong] at older
    rcases h.nested f known g known' older with before | around
    · exact .inl (h.leftBefore_closeAmong known before returns)
    · exact .inr (h.around_closeAmong entries coherent known' older around returns)
  changes := by
    obtain ⟨segment, rest, segments, -, newest⟩ := coherent.top
    have fresh := coherent.linked.head?_drop_ne positive newest remaining
    have chained := h.changes
    rw [segments] at chained
    simp only [Replay.left, segments]
    exact .cons_cons fresh chained

end

theorem Reaches.exits {t : Trace} {i : Nat} {r : Replay} (h : Reaches t i r) : Exits i r := by
  induction h with
  | start => exact exits_start t.root
  | @next i r s before after reached _ _ advanced ih =>
    rcases advance_cases advanced with ⟨-, rfl⟩ | ⟨address, -, -, rfl⟩ |
      ⟨returns, top, -, positive, remaining, rfl⟩
    · exact ih.later (Nat.le_succ i)
    · exact ih.enter reached.entries reached.coherent address
    · exact ih.left reached.entries reached.coherent positive remaining

theorem Exits.contains_iff {t : Trace} {i : Nat} {r : Replay} (h : Exits i r)
    (entries : Entries t i (r.frames.map CallFrame.entry)) {f : CallFrame} (mem : f ∈ r.frames) :
    f.contains i = true ↔ f.id ∈ r.stack := by
  have entered : f.enteredAt ≤ i := entries.entered f.entry (List.mem_map_of_mem mem)
  rw [CallFrame.contains_iff, ← h.isOpen f mem]
  constructor
  · rintro ⟨-, inside⟩
    cases left : f.exitedAt with
    | none => rfl
    | some exit => exact absurd (inside exit left) (Nat.not_lt.mpr (h.exited f mem exit left).2)
  · intro isOpen
    exact ⟨entered, by simp [isOpen]⟩

/-- A frame contains a step that was passed if it was on the stack of that step: frames are
entered and closed behind the steps that were passed. -/
theorem Reaches.contains_iff {t : Trace} {i j : Nat} {s : Replay} (h : Reaches t j s)
    (hij : i ≤ j) :
    ∃ r, Reaches t i r ∧ Later i r s ∧
      ∀ f ∈ s.frames, f.contains i = true ↔ f.id ∈ r.stack := by
  induction h with
  | start nonempty =>
    obtain rfl : i = 0 := Nat.le_zero.mp hij
    have first := Reaches.start nonempty
    exact ⟨_, first, .refl 0 _, fun f mem => first.exits.contains_iff first.entries mem⟩
  | @next j q s before after reached hb ha advanced ih =>
    rcases Nat.le_succ_iff.mp hij with earlier | rfl
    · obtain ⟨r, reached', later, contained⟩ := ih earlier
      refine ⟨r, reached', later.trans earlier (later_of_advance advanced), ?_⟩
      intro g mem
      rcases advance_cases advanced with ⟨-, rfl⟩ | ⟨address, -, -, rfl⟩ |
        ⟨returns, top, -, -, -, rfl⟩
      · exact contained g mem
      · rcases List.mem_cons.mp mem with rfl | mem
        · constructor
          · intro contains
            have entered : j + 1 ≤ i := (CallFrame.contains_iff.mp contains).1
            exact absurd entered (Nat.not_le.mpr (Nat.lt_succ_of_le earlier))
          · intro stacked
            have known := reached'.coherent.known stacked
            have fewer := later.frames.length_le
            simp only [List.length_map] at fewer
            exact absurd known (Nat.not_lt.mpr fewer)
        · exact contained g mem
      · obtain ⟨f, known, rfl⟩ := exists_of_mem_left mem
        rw [CallFrame.contains_closeAmong ?_ (Nat.lt_succ_of_le earlier),
          CallFrame.id_closeAmong]
        · exact contained f known
        · intro leaves
          exact (reached.exits.isOpen f known).mpr (List.mem_of_mem_take leaves)
    · have last := Reaches.next reached hb ha advanced
      exact ⟨s, last, .refl _ s, fun f mem => last.exits.contains_iff last.entries mem⟩

end Replay

namespace FrameIndex

/-- A step of the trace before the first malformed one. -/
def Replayed (ix : FrameIndex) (step : Nat) : Prop :=
  step < ix.length ∧ ∀ m, ix.malformedAt = some m → step < m

/-- The frames of an index form one tree of nested stretches of the trace. -/
structure Nested (ix : FrameIndex) (t : Trace) : Prop where
  numbered : ∀ (k : Nat) (f : CallFrame), ix.frames[k]? = some f → f.id = ⟨k⟩
  ordered : ix.frames.Pairwise fun f g => f.enteredAt < g.enteredAt
  outermost : ∃ f, ix.frames[0]? = some f ∧ f.parent = none ∧ f.depth = 0 ∧ f.address = t.root ∧
    f.enteredAt = 0
  entered : ∀ f ∈ ix.frames, f.id ≠ ⟨0⟩ → ∃ g ∈ ix.frames, f.EnteredFrom t g
  /-- Frames of init code that a step created differ in their addresses. -/
  creations : ∀ f ∈ ix.frames, ∀ g ∈ ix.frames, f.id ≠ ⟨0⟩ → g.id ≠ ⟨0⟩ →
    f.address.isCreation = true → f.address = g.address → f = g
  /-- So does the outermost frame, as long as the trace does not say that a step created it. -/
  rootCreation : (∀ k, t.root ≠ .creation (.step k)) → ∀ f ∈ ix.frames, ∀ g ∈ ix.frames,
    f.address.isCreation = true → f.address = g.address → f = g
  exited : ∀ f ∈ ix.frames, ∀ exit, f.exitedAt = some exit →
    f.enteredAt < exit ∧ exit < t.length ∧ ix.Replayed exit
  children : ∀ f ∈ ix.frames, ∀ g ∈ ix.frames, f.parent = some g.id →
    ∀ exit, g.exitedAt = some exit → ∃ inner, f.exitedAt = some inner ∧ inner ≤ exit
  siblings : ∀ f ∈ ix.frames, ∀ g ∈ ix.frames, f ≠ g → f.parent = g.parent →
    ∀ i, ¬ (f.contains i = true ∧ g.contains i = true)
  nested : ∀ f ∈ ix.frames, ∀ g ∈ ix.frames, f.id.index < g.id.index →
    f.LeftBefore g ∨ f.Around g
  /-- The stack of a replayed step holds exactly the frames that contain the step. -/
  contains : ∀ i, ix.Replayed i → ∃ stack, ix.stackAt i = .ok (.ok stack) ∧
    ∀ f, f ∈ stack ↔ f ∈ ix.frames ∧ f.contains i = true
  changes : ix.segments.IsChain fun newer older => newer.frame ≠ older.frame

theorem replayed_ofReplay {t : Trace} {s : Replay} {malformed : Option Malformation}
    (ends : Replay.Ends t s malformed) :
    ∃ last, Replay.Reaches t last s ∧ ∀ i, (ofReplay t s malformed).Replayed i ↔ i ≤ last := by
  cases malformed with
  | none =>
    obtain ⟨last, eq, reached⟩ := ends
    refine ⟨last, reached, fun i => ?_⟩
    have inside : i < t.steps.length ↔ i ≤ last := by omega
    simpa [Replayed, ofReplay, malformedAt, Trace.length] using inside
  | some m =>
    have bound := ends.bound
    obtain ⟨last, -, -, eq, reached, -⟩ := ends
    refine ⟨last, reached, fun i => ?_⟩
    have before : i < t.length ∧ i < m.step ↔ i ≤ last := by omega
    simpa [Replayed, ofReplay, malformedAt] using before

theorem opened_creation {s : Step} {caller : Nat} {address : ExecutingAddress}
    (opened : s.opened? caller = some address) (creation : address.isCreation = true) :
    address = .creation (.step caller) := by
  unfold Step.opened? at opened
  split at opened
  · obtain ⟨target, -, rfl⟩ := Option.map_eq_some_iff.mp opened
    cases creation
  · split at opened
    · exact (Option.some.inj opened).symm
    · cases opened

/-- Init code runs in the outermost frame, or a step before its first one created it. -/
theorem creation_cases {t : Trace} {i : Nat} {r : Replay}
    (entries : Replay.Entries t i (r.frames.map CallFrame.entry)) {f : CallFrame}
    (mem : f ∈ r.frames) (creation : f.address.isCreation = true) :
    (f.id = ⟨0⟩ ∧ f.address = t.root) ∨
      ∃ k, f.enteredAt = k + 1 ∧ f.address = .creation (.step k) := by
  rcases entries.cases mem with ⟨first, -, -, address, -⟩ | ⟨-, g, -, entered⟩
  · exact .inl ⟨first, address⟩
  · obtain ⟨s, -, opened⟩ := entered.opened
    have positive := Nat.zero_lt_of_lt entered.later
    exact .inr ⟨f.enteredAt - 1, (Nat.sub_add_cancel positive).symm,
      opened_creation opened creation⟩

/-- Two frames of init code with one address are one frame. The trace may say that the
outermost one was created by a step, so that either both are others or it must not. -/
theorem creations_differ {t : Trace} {i : Nat} {r : Replay}
    (entries : Replay.Entries t i (r.frames.map CallFrame.entry)) {f g : CallFrame}
    (mem : f ∈ r.frames) (mem' : g ∈ r.frames) (creation : f.address.isCreation = true)
    (same : f.address = g.address)
    (opened : (f.id ≠ ⟨0⟩ ∧ g.id ≠ ⟨0⟩) ∨ ∀ k, t.root ≠ .creation (.step k)) : f = g := by
  rcases creation_cases entries mem creation with ⟨first, root⟩ | ⟨k, entered, address⟩
  · rcases creation_cases entries mem' (same ▸ creation) with ⟨first', -⟩ | ⟨k, -, address⟩
    · exact entries.eq_of_id_eq mem mem' (first.trans first'.symm)
    · rcases opened with ⟨later, -⟩ | foreign
      · exact absurd first later
      · exact absurd (root.symm.trans (same.trans address)) (foreign k)
  · rcases creation_cases entries mem' (same ▸ creation) with
      ⟨first, root⟩ | ⟨k', entered', address'⟩
    · rcases opened with ⟨-, later⟩ | foreign
      · exact absurd first later
      · exact absurd (root.symm.trans (same.symm.trans address)) (foreign k)
    · have steps : ExecutingAddress.creation (.step k) = .creation (.step k') :=
        address.symm.trans (same.trans address')
      cases steps
      exact entries.eq_of_enteredAt_eq mem mem' (entered.trans entered'.symm)

theorem exited_of_parent {t : Trace} {i : Nat} {r : Replay}
    (entries : Replay.Entries t i (r.frames.map CallFrame.entry)) (exits : Replay.Exits i r)
    {f g : CallFrame} (mem : f ∈ r.frames) (mem' : g ∈ r.frames) (parent : f.parent = some g.id)
    {exit : Nat} (left : g.exitedAt = some exit) :
    ∃ inner, f.exitedAt = some inner ∧ inner ≤ exit := by
  rcases entries.cases mem with ⟨-, none, -⟩ | ⟨-, p, known, entered⟩
  · cases none.symm.trans parent
  · have same : p.id = g.id := Option.some.inj (entered.parent.symm.trans parent)
    obtain rfl := entries.eq_of_id_eq known mem' same
    rcases exits.nested p known f mem entered.number with before | around
    · exact absurd parent before.stranger
    · exact around.within exit left

/-- Of two frames with one parent the older was left before the newer was entered. -/
theorem leftBefore_of_siblings {t : Trace} {i : Nat} {r : Replay}
    (entries : Replay.Entries t i (r.frames.map CallFrame.entry)) (exits : Replay.Exits i r)
    {f g : CallFrame} (mem : f ∈ r.frames) (mem' : g ∈ r.frames) (same : f.parent = g.parent)
    (older : f.id.index < g.id.index) : f.LeftBefore g := by
  rcases exits.nested f mem g mem' older with before | around
  · exact before
  · exfalso
    rcases entries.cases mem' with ⟨first, -⟩ | ⟨-, p, known, entered⟩
    · rw [first] at older
      exact Nat.not_lt_zero _ older
    · rcases entries.cases mem with ⟨-, none, -⟩ | ⟨-, q, known', entered'⟩
      · cases none.symm.trans (same.trans entered.parent)
      · have parents : q.id = p.id :=
          Option.some.inj (entered'.parent.symm.trans (same.trans entered.parent))
        obtain rfl := entries.eq_of_id_eq known' known parents
        have deeper := around.depth
        rw [entered.depth, entered'.depth] at deeper
        exact Nat.lt_irrefl _ deeper

theorem siblings_disjoint {t : Trace} {i : Nat} {r : Replay}
    (entries : Replay.Entries t i (r.frames.map CallFrame.entry)) (exits : Replay.Exits i r)
    {f g : CallFrame} (mem : f ∈ r.frames) (mem' : g ∈ r.frames) (distinct : f ≠ g)
    (same : f.parent = g.parent) (step : Nat) :
    ¬ (f.contains step = true ∧ g.contains step = true) := by
  rintro ⟨inside, inside'⟩
  have numbers : f.id.index ≠ g.id.index := fun eq =>
    distinct (entries.eq_of_id_eq mem mem' (congrArg CallFrameId.mk eq))
  rcases Nat.lt_or_gt_of_ne numbers with older | older
  · exact (leftBefore_of_siblings entries exits mem mem' same older).disjoint inside inside'
  · exact (leftBefore_of_siblings entries exits mem' mem same.symm older).disjoint inside' inside

/-- The stack of a replayed step has the frames that contain the step. -/
theorem mem_stackAt_iff {t : Trace} {last i : Nat} {s : Replay} {malformed : Option Malformation}
    (reached : Replay.Reaches t last s) (replayed : (ofReplay t s malformed).Replayed i)
    (earlier : i ≤ last) :
    ∃ stack, (ofReplay t s malformed).stackAt i = .ok (.ok stack) ∧
      ∀ f, f ∈ stack ↔ f ∈ (ofReplay t s malformed).frames ∧ f.contains i = true := by
  obtain ⟨r, reached', later, contained⟩ := reached.contains_iff earlier
  have before : ∀ m, malformed = some m → i < m.step :=
    fun m eq => replayed.2 m.step (congrArg (Option.map Malformation.step) eq)
  obtain ⟨top, found, -, lineage, -⟩ := reached'.frameAt later before
  refine ⟨(ofReplay t s malformed).lineage top, ?_, ?_⟩
  · rw [stackAt, found]
    rfl
  · intro f
    have stacked : f ∈ (ofReplay t s malformed).lineage top ↔
        ∃ id ∈ r.stack, s.frame? id = some f := by
      have listed := congrArg (some f ∈ ·) lineage
      simpa using listed
    rw [stacked, ofReplay, List.mem_reverse]
    constructor
    · rintro ⟨id, mem, found⟩
      obtain ⟨known, rfl⟩ := reached.entries.frame? found
      exact ⟨known, (contained f known).mpr mem⟩
    · rintro ⟨known, contains⟩
      exact ⟨f.id, (contained f known).mp contains, reached.entries.frame?_of_mem known⟩

theorem nested_ofReplay {t : Trace} {s : Replay} {malformed : Option Malformation}
    (ends : Replay.Ends t s malformed) : (ofReplay t s malformed).Nested t := by
  obtain ⟨last, reached, replayed⟩ := replayed_ofReplay ends
  have entries := reached.entries
  have exits := reached.exits
  have known : ∀ f, f ∈ (ofReplay t s malformed).frames ↔ f ∈ s.frames :=
    fun _ => List.mem_reverse
  exact {
    numbered := by
      intro k f found
      have numbered : s.frame? ⟨k⟩ = some f := found
      exact (entries.frame? numbered).2
    ordered := List.pairwise_reverse.mpr (List.pairwise_map.mp entries.ordered)
    outermost := by
      obtain ⟨e, mem, number, facts⟩ := entries.outermost
      obtain ⟨f, mem', rfl⟩ := List.mem_map.mp mem
      have first : f.id = ⟨0⟩ := congrArg CallFrameId.mk number
      have found := entries.frame?_of_mem mem'
      rw [first] at found
      exact ⟨f, found, facts⟩
    entered := by
      intro f mem later
      rcases entries.cases ((known f).mp mem) with ⟨first, -⟩ | ⟨-, g, mem', entered⟩
      · exact absurd first later
      · exact ⟨g, (known g).mpr mem', entered⟩
    creations := by
      intro f mem g mem' later later' creation same
      exact creations_differ entries ((known f).mp mem) ((known g).mp mem') creation same
        (.inl ⟨later, later'⟩)
    rootCreation := by
      intro foreign f mem g mem' creation same
      exact creations_differ entries ((known f).mp mem) ((known g).mp mem') creation same
        (.inr foreign)
    exited := by
      intro f mem exit left
      obtain ⟨lt, le⟩ := exits.exited f ((known f).mp mem) exit left
      have inside := (replayed exit).mpr le
      exact ⟨lt, inside.1, inside⟩
    children := by
      intro f mem g mem' parent exit left
      exact exited_of_parent entries exits ((known f).mp mem) ((known g).mp mem') parent left
    siblings := by
      intro f mem g mem' distinct same
      exact siblings_disjoint entries exits ((known f).mp mem) ((known g).mp mem') distinct same
    nested := by
      intro f mem g mem' older
      exact exits.nested f ((known f).mp mem) g ((known g).mp mem') older
    contains := fun i inside => mem_stackAt_iff reached inside ((replayed i).mp inside)
    changes := exits.changes }

/-- The frames of a trace with steps are nested, also when the trace is malformed. -/
theorem exists_build_nested (t : Trace) (nonempty : t.steps ≠ [])
    (bounded : ∀ s ∈ t.steps, s.depth + 1 < wordLimit) :
    ∃ ix, build t = .ok ix ∧ ix.Nested t := by
  obtain ⟨s, malformed, built, ends⟩ := exists_build nonempty bounded
  exact ⟨ofReplay t s malformed, built, nested_ofReplay ends⟩

/-- Three calls that end together, one of them of the code that runs already, then two
creations, of which the first is over, and a step that is too deep. -/
def nestedCreations : Trace where
  steps := [⟨0, Opcode.call, 1, some (.ofLast 0xbb)⟩,
    ⟨0, Opcode.delegateCall, 2, some (.ofLast 0xcc)⟩, ⟨0, Opcode.call, 3, some (.ofLast 0xbb)⟩,
    ⟨0, Opcode.jumpdest, 4, none⟩, ⟨1, Opcode.create, 1, none⟩, ⟨0, Opcode.jumpdest, 2, none⟩,
    ⟨2, Opcode.create, 1, none⟩, ⟨0, Opcode.jumpdest, 2, none⟩, ⟨1, Opcode.jumpdest, 5, none⟩]
  root := .contract (.ofLast 0xaa)
  bytecodes := .empty

theorem nestedCreations_nested :
    nestedCreations.steps ≠ [] ∧ (∀ s ∈ nestedCreations.steps, s.depth + 1 < wordLimit) ∧
      ∃ ix, build nestedCreations = .ok ix ∧ ix.Nested nestedCreations ∧
        ix.malformedAt = some 8 ∧
        ix.frames.map (fun f => (f.parent.map (·.index), f.enteredAt, f.exitedAt)) =
          [(none, 0, none), (some 0, 1, some 4), (some 1, 2, some 4), (some 2, 3, some 4),
            (some 0, 5, some 6), (some 0, 7, none)] := by
  have nonempty : nestedCreations.steps ≠ [] := by decide
  have bounded : ∀ s ∈ nestedCreations.steps, s.depth + 1 < wordLimit := by decide
  obtain ⟨ix, built, nested⟩ := exists_build_nested nestedCreations nonempty bounded
  refine ⟨nonempty, bounded, ix, built, nested, ?_⟩
  have computed : (build nestedCreations).map (fun ix => (ix.malformedAt,
      ix.frames.map fun f => (f.parent.map (·.index), f.enteredAt, f.exitedAt))) =
        .ok (some 8, [(none, 0, none), (some 0, 1, some 4), (some 1, 2, some 4),
          (some 2, 3, some 4), (some 0, 5, some 6), (some 0, 7, none)]) := by decide
  rw [built] at computed
  exact Prod.mk.inj (Except.ok.inj computed)

/-- A trace that says of its root that the first step created it, which creates another frame. -/
def selfCreated : Trace where
  steps := [⟨0, Opcode.create, 1, none⟩, ⟨0, Opcode.jumpdest, 2, none⟩]
  root := .creation (.step 0)
  bytecodes := .empty

/-- For such a root the addresses of init code may agree. No loaded trace has one: there the
root is what the transaction targets. -/
theorem selfCreated_shares_address :
    ∃ ix, build selfCreated = .ok ix ∧ ∃ f ∈ ix.frames, ∃ g ∈ ix.frames,
      f.address.isCreation = true ∧ f.address = g.address ∧ f ≠ g := by
  refine ⟨_, rfl, ⟨⟨0⟩, none, 0, .creation (.step 0), 0, none⟩, ?_,
    ⟨⟨1⟩, some ⟨0⟩, 1, .creation (.step 0), 1, none⟩, ?_, rfl, rfl, ?_⟩
  all_goals decide

end FrameIndex

end TraceDebug

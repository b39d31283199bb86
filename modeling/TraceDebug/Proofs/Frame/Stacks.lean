import TraceDebug.Proofs.Frame.Nesting

/-!
# The stacks of neighbouring steps

From one replayed step to the next the stack stays, gets one more frame, or loses some
of its newest frames. Two steps therefore have in common what no step between them left.
-/

namespace TraceDebug

/-- The place of a frame, counted from the outermost, is its depth. -/
theorem Linked.depth_eq {frame? : CallFrameId → Option CallFrame} {stack : List CallFrameId}
    (h : Linked frame? stack) {k : Nat} {f : CallFrame}
    (found : (stack.map frame?).reverse[k]? = some (some f)) : f.depth = k := by
  induction stack with
  | nil => cases found
  | cons id rest ih =>
    obtain ⟨⟨g, hg, -, depth⟩, -, linked⟩ := h
    rw [List.map_cons, List.reverse_cons] at found
    by_cases lower : k < rest.length
    · rw [List.getElem?_append_left (by simpa using lower)] at found
      exact ih linked found
    · obtain ⟨inside, same⟩ := List.getElem?_eq_some_iff.mp found
      obtain rfl : k = rest.length := by
        simp only [List.length_append, List.length_reverse, List.length_map, List.length_cons,
          List.length_nil] at inside
        omega
      have top : frame? id = some f := by simpa using same
      obtain rfl : g = f := Option.some.inj (hg.symm.trans top)
      exact depth

namespace FrameIndex

variable {t : Trace} {ix : FrameIndex}

theorem answer_unique {α : Type} {answer : Checked (Except ResolutionError α)} {a b : α}
    (h : answer = .ok (.ok a)) (h' : answer = .ok (.ok b)) : a = b :=
  Except.ok.inj (Except.ok.inj (h.symm.trans h'))

theorem replayed_of_frameAt {step : Nat} {f : CallFrame} (found : ix.frameAt step = .ok (.ok f)) :
    ix.Replayed step := by
  unfold frameAt at found
  split at found
  · cases found
  · next inside =>
    refine ⟨Nat.lt_of_not_le inside, ?_⟩
    intro m malformed
    obtain ⟨c, known, rfl⟩ := Option.map_eq_some_iff.mp malformed
    by_contra behind
    have refused : ix.malformationBefore step = some c := by
      simp [malformationBefore, known, Nat.le_of_not_lt behind]
    rw [refused] at found
    cases found

/-- The frames of all steps before a step with a known frame are known. -/
theorem frameAt_of_earlier (built : build t = .ok ix) {i j : Nat} (hij : i ≤ j) {f : CallFrame}
    (found : ix.frameAt j = .ok (.ok f)) : ∃ g, ix.frameAt i = .ok (.ok g) := by
  obtain ⟨inside, before⟩ := replayed_of_frameAt found
  rcases frameAt_cases (steps_ne_nil built inside) built (Nat.lt_of_le_of_lt hij inside) with
    known | ⟨m, malformed, behind, -⟩
  · exact known
  · have later := before m.step (congrArg (Option.map Malformation.step) malformed)
    exact absurd (Nat.le_trans behind hij) (Nat.not_le.mpr later)

/-- The stack of a step that a replay passed has the frames of the ids that were stacked. -/
theorem stackAt_of_reaches {i : Nat} {r s : Replay} {malformed : Option Malformation}
    (reached : Replay.Reaches t i r) (later : Replay.Later i r s)
    (before : ∀ m, malformed = some m → i < m.step) :
    ∃ stack, (ofReplay t s malformed).stackAt i = .ok (.ok stack) ∧
      stack.map some = (r.stack.map s.frame?).reverse := by
  obtain ⟨f, found, -, lineage, -⟩ := reached.frameAt later before
  refine ⟨(ofReplay t s malformed).lineage f, ?_, lineage⟩
  rw [stackAt, found]
  rfl

/-- A step whose frame is known was passed on the way to the last state. -/
theorem passed_of_frameAt (built : build t = .ok ix) {step : Nat} {f : CallFrame}
    (found : ix.frameAt step = .ok (.ok f)) :
    ∃ r s malformed, ix = ofReplay t s malformed ∧ Replay.Reaches t step r ∧
      Replay.Later step r s ∧ ∀ m, malformed = some m → step < m.step := by
  obtain ⟨inside, before⟩ := replayed_of_frameAt found
  obtain ⟨s, malformed, rfl, ends⟩ := ends_of_build (steps_ne_nil built inside) built
  have before' : ∀ m, malformed = some m → step < m.step :=
    fun m eq => before m.step (congrArg (Option.map Malformation.step) eq)
  obtain ⟨r, reached, later⟩ := ends.passed inside before'
  exact ⟨r, s, malformed, rfl, reached, later, before'⟩

theorem frameAt_of_stackAt {step : Nat} {stack : List CallFrame}
    (known : ix.stackAt step = .ok (.ok stack)) :
    ∃ f, ix.frameAt step = .ok (.ok f) ∧ stack = ix.lineage f := by
  obtain ⟨answer, found, same⟩ := Checked.map_eq_ok.mp known
  cases answer with
  | error e => cases same
  | ok f =>
    cases same
    exact ⟨f, found, rfl⟩

/-- The frame of a step is the last one of its stack, and each frame of the stack has its
place as its depth. -/
theorem stackAt_of_frameAt (built : build t = .ok ix) {step : Nat} {f : CallFrame}
    (found : ix.frameAt step = .ok (.ok f)) :
    ∃ stack, ix.stackAt step = .ok (.ok stack) ∧ stack.length = f.depth + 1 ∧ f ∈ stack ∧
      ∀ (k : Nat) (g : CallFrame), stack[k]? = some g → g.depth = k := by
  obtain ⟨r, s, malformed, rfl, reached, later, before⟩ := passed_of_frameAt built found
  obtain ⟨top, found', depth, lineage, last⟩ := reached.frameAt later before
  obtain rfl : top = f := answer_unique found' found
  obtain ⟨stack, known, frames⟩ := stackAt_of_reaches reached later before
  have linked : Linked s.frame? r.stack := reached.coherent.linked.mono fun _ _ => later.frame?
  refine ⟨stack, known, ?_, ?_, ?_⟩
  · have lengths := congrArg List.length frames
    simp only [List.length_map, List.length_reverse] at lengths
    rw [lengths, depth]
  · obtain ⟨id, head, framed⟩ := Option.bind_eq_some_iff.mp last
    have listed : some top ∈ stack.map some := by
      rw [frames, ← framed]
      exact List.mem_reverse.mpr (List.mem_map_of_mem (List.mem_of_head? head))
    obtain ⟨g, mem, same⟩ := List.mem_map.mp listed
    exact Option.some.inj same ▸ mem
  · intro k g placed
    apply linked.depth_eq
    rw [← frames, List.getElem?_map, placed]
    rfl

theorem placed_of_stackAt (built : build t = .ok ix) {step : Nat} {f : CallFrame}
    (found : ix.frameAt step = .ok (.ok f)) {stack : List CallFrame}
    (known : ix.stackAt step = .ok (.ok stack)) :
    stack.length = f.depth + 1 ∧ f ∈ stack ∧
      ∀ (k : Nat) (g : CallFrame), stack[k]? = some g → g.depth = k := by
  obtain ⟨own, known', facts⟩ := stackAt_of_frameAt built found
  obtain rfl : own = stack := answer_unique known' known
  exact facts

/-- From a replayed step to the next the stack stays, gets one frame, or loses some. -/
theorem stackAt_succ_cases (built : build t = .ok ix) {i : Nat} {stack next : List CallFrame}
    (now : ix.stackAt i = .ok (.ok stack)) (after : ix.stackAt (i + 1) = .ok (.ok next)) :
    next = stack ∨ (∃ f, next = stack ++ [f]) ∨ ∃ height, next = stack.take height := by
  obtain ⟨f, found, -⟩ := frameAt_of_stackAt after
  obtain ⟨q, s, malformed, rfl, reached, later, before⟩ := passed_of_frameAt built found
  obtain ⟨next', known', frames'⟩ := stackAt_of_reaches reached later before
  obtain rfl : next' = next := answer_unique known' after
  cases reached with
  | @next _ r _ _ _ reached _ _ advanced =>
    have earlier : Replay.Later i r s :=
      (Replay.later_of_advance advanced).trans (Nat.le_succ i) later
    have before' : ∀ m, malformed = some m → i < m.step :=
      fun m eq => Nat.lt_of_succ_lt (before m eq)
    obtain ⟨stack', known, frames⟩ := stackAt_of_reaches reached earlier before'
    obtain rfl : stack' = stack := answer_unique known now
    have lift := List.map_injective_iff.mpr (Option.some_injective CallFrame)
    rcases Replay.advance_cases advanced with ⟨-, rfl⟩ | ⟨address, -, -, rfl⟩ |
      ⟨returns, top, -, -, -, rfl⟩
    · exact .inl (lift (frames'.trans frames.symm))
    · rw [Replay.enter, List.map_cons, List.reverse_cons, ← frames] at frames'
      obtain ⟨older, newest, rfl, same, single⟩ := List.map_eq_append_iff.mp frames'
      obtain ⟨g, rfl, -⟩ := List.map_eq_singleton_iff.mp single
      exact .inr (.inl ⟨g, congrArg (· ++ [g]) (lift same)⟩)
    · refine .inr (.inr ⟨stack'.length - returns, lift ?_⟩)
      have lengths := congrArg List.length frames
      simp only [List.length_map, List.length_reverse] at lengths
      rw [frames', Replay.left, List.map_drop, List.reverse_drop, ← frames, List.length_map,
        ← lengths, List.map_take]

/-- All steps from `i` to `j` have at least `height` frames on their stacks. -/
def OpenFrom (ix : FrameIndex) (i j height : Nat) : Prop :=
  ∀ k, i ≤ k → k ≤ j → ∃ stack, ix.stackAt k = .ok (.ok stack) ∧ height ≤ stack.length

/-- What no step leaves stays. -/
theorem take_stackAt_eq (built : build t = .ok ix) {i j height : Nat} (hij : i ≤ j)
    (isOpen : ix.OpenFrom i j height) {stack later : List CallFrame}
    (first : ix.stackAt i = .ok (.ok stack)) (last : ix.stackAt j = .ok (.ok later)) :
    later.take height = stack.take height := by
  induction j, hij using Nat.le_induction generalizing later with
  | base => rw [answer_unique first last]
  | succ j hij ih =>
    obtain ⟨now, known, high⟩ := isOpen j hij (Nat.le_succ j)
    obtain ⟨later', known', high'⟩ := isOpen (j + 1) (Nat.le_succ_of_le hij) (Nat.le_refl _)
    obtain rfl : later' = later := answer_unique known' last
    have same := ih (fun k lower upper => isOpen k lower (Nat.le_succ_of_le upper)) known
    rw [← same]
    rcases stackAt_succ_cases built known last with rfl | ⟨f, rfl⟩ | ⟨n, rfl⟩
    · rfl
    · exact List.take_append_of_le_length high
    · rw [List.take_take, Nat.min_eq_left]
      rw [List.length_take] at high'
      omega

/-- A frame that is nowhere deeper than the frames of a stretch of steps at one end of which
it runs is on the stack at the other end. -/
theorem mem_stackAt_of_least (built : build t = .ok ix) {i j : Nat} {f : CallFrame}
    (found : ix.frameAt i = .ok (.ok f))
    (least : ∀ k, min i j ≤ k → k ≤ max i j →
      ∃ g, ix.frameAt k = .ok (.ok g) ∧ f.depth ≤ g.depth)
    {stack : List CallFrame} (known : ix.stackAt j = .ok (.ok stack)) : f ∈ stack := by
  obtain ⟨own, first, length, mem, -⟩ := stackAt_of_frameAt built found
  have isOpen : ix.OpenFrom (min i j) (max i j) (f.depth + 1) := by
    intro k lower upper
    obtain ⟨g, found, shallow⟩ := least k lower upper
    obtain ⟨stack, known, length, -⟩ := stackAt_of_frameAt built found
    exact ⟨stack, known, by omega⟩
  have common : stack.take (f.depth + 1) = own.take (f.depth + 1) := by
    rcases Nat.le_total i j with hij | hji
    · rw [Nat.min_eq_left hij, Nat.max_eq_right hij] at isOpen
      exact take_stackAt_eq built hij isOpen first known
    · rw [Nat.min_eq_right hji, Nat.max_eq_left hji] at isOpen
      exact (take_stackAt_eq built hji isOpen known first).symm
  apply List.mem_of_mem_take
  rw [common, List.take_of_length_le (Nat.le_of_eq length)]
  exact mem

theorem depth_le_of_mem_stackAt (built : build t = .ok ix) {step : Nat} {f g : CallFrame}
    (found : ix.frameAt step = .ok (.ok f)) {stack : List CallFrame}
    (known : ix.stackAt step = .ok (.ok stack)) (mem : g ∈ stack) : g.depth ≤ f.depth := by
  obtain ⟨height, -, placed⟩ := placed_of_stackAt built found known
  obtain ⟨k, listed⟩ := List.mem_iff_getElem?.mp mem
  rw [placed k g listed]
  apply Nat.le_of_lt_succ
  rw [Nat.succ_eq_add_one, ← height]
  exact (List.getElem?_eq_some_iff.mp listed).1

/-- The callers on a stack are above its last frame. -/
theorem depth_lt_of_mem_stackAt (built : build t = .ok ix) {step : Nat} {f g : CallFrame}
    (found : ix.frameAt step = .ok (.ok f)) {stack : List CallFrame}
    (known : ix.stackAt step = .ok (.ok stack)) (mem : g ∈ stack) (other : g ≠ f) :
    g.depth < f.depth := by
  apply Nat.lt_of_le_of_ne (depth_le_of_mem_stackAt built found known mem)
  intro level
  obtain ⟨-, mem', placed⟩ := placed_of_stackAt built found known
  obtain ⟨k, listed⟩ := List.mem_iff_getElem?.mp mem
  obtain ⟨k', listed'⟩ := List.mem_iff_getElem?.mp mem'
  have place : k = k' := by
    rw [← placed k g listed, ← placed k' f listed', level]
  subst place
  exact other (Option.some.inj (listed.symm.trans listed'))

/-- From one step to the next the level grows by one at most. -/
theorem depth_succ_le (built : build t = .ok ix) {step : Nat} {f g : CallFrame}
    (here : ix.frameAt step = .ok (.ok g)) (after : ix.frameAt (step + 1) = .ok (.ok f)) :
    f.depth ≤ g.depth + 1 := by
  obtain ⟨stack, known, height, -⟩ := stackAt_of_frameAt built here
  obtain ⟨next, known', height', -⟩ := stackAt_of_frameAt built after
  have grown : next.length ≤ stack.length + 1 := by
    rcases stackAt_succ_cases built known known' with rfl | ⟨newest, rfl⟩ | ⟨kept, rfl⟩
    · exact Nat.le_succ _
    · exact Nat.le_of_eq List.length_append
    · exact Nat.le_succ_of_le (List.length_take_le' _ _)
  rw [height, height'] at grown
  exact Nat.le_of_succ_le_succ grown

theorem depth_of_frameAt_zero (built : build t = .ok ix) {f : CallFrame}
    (found : ix.frameAt 0 = .ok (.ok f)) : f.depth = 0 := by
  obtain ⟨r, s, malformed, rfl, reached, later, before⟩ := passed_of_frameAt built found
  obtain ⟨top, found', depth, -⟩ := reached.frameAt later before
  obtain rfl : top = f := answer_unique found' found
  cases reached
  exact Nat.succ.inj depth

end FrameIndex

end TraceDebug

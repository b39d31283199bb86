import TraceDebug.Proofs.Navigator
import TraceDebug.Proofs.Session.Loads

/-!
# The cursor stays inside the trace

A session has a trace and a cursor just while it is loaded, and the cursor is at a step
of the trace. So no movement can leave the trace, and the frame stack at the cursor is
known unless the trace is malformed there.
-/

namespace TraceDebug

theorem indexed_of_indexAnswer {transaction : Transaction} {answer : Except Causes Trace}
    {l : LoadedTrace} (h : indexAnswer transaction answer = .ok l) : l.Indexed := by
  unfold indexAnswer at h
  split at h
  · cases h
  · next t =>
    split at h
    · next result indexed =>
      subst h
      exact ⟨transaction, t, indexed⟩
    · cases h

theorem Navigator.jumpTo_inside {n : Navigator} {index : Nat} (inside : index < n.length) :
    n.jumpTo index = .ok { n with cursor := index } :=
  if_neg (Nat.not_le.mpr inside)

namespace Session

variable {s : Session}

theorem Consistent.inside (h : s.Consistent) {n : Navigator} (navigator : s.navigator = some n) :
    n.cursor < n.length := by
  cases h with
  | loaded _ _ found _ inside =>
    cases found.symm.trans navigator
    exact inside
  | empty _ _ none => cases none.symm.trans navigator

theorem Consistent.exists_navigator (h : s.Consistent) {l : LoadedTrace}
    (trace : s.loaded = some l) :
    ∃ n, s.navigator = some n ∧ n.length = l.length ∧ n.cursor < n.length := by
  cases h with
  | loaded _ present navigator length inside =>
    cases present.symm.trans trace
    exact ⟨_, navigator, length, inside⟩
  | empty _ none => cases none.symm.trans trace

theorem Consistent.loaded_iff (h : s.Consistent) : s.status = .loaded ↔ s.loaded.isSome := by
  cases h <;> simp [*]

theorem Consistent.navigator_iff (h : s.Consistent) :
    s.loaded.isSome ↔ s.navigator.isSome := by
  cases h <;> simp [*]

/-- A movement stays, or it moves the cursor to its target. -/
theorem moveCursor_cases (consistent : s.Consistent) {movement : Movement}
    {turn : Turn (Except NavigationError (Option Resolution))}
    (h : s.moveCursor movement = .ok turn) :
    (s.loaded = none ∧ turn = { session := s, result := .error .notLoaded }) ∨
    ∃ l n, s.loaded = some l ∧ s.navigator = some n ∧
      ((n.target l.frames movement = .ok none ∧ turn = { session := s, result := .ok none }) ∨
      ∃ step, n.target l.frames movement = .ok (some step) ∧ step < n.length ∧
        turn = { s with navigator := some { n with cursor := step } }.moved step []
          fun r => .ok (some r)) := by
  unfold moveCursor at h
  split at h
  · next n l navigator trace =>
    have inside := consistent.inside navigator
    refine .inr ⟨l, n, trace, navigator, ?_⟩
    obtain ⟨target, led, h⟩ := Checked.bind_eq_ok.mp h
    cases target with
    | none => exact .inl ⟨led, (Except.ok.inj h).symm⟩
    | some step =>
      have below := (Navigator.target_inside inside led).1
      simp only [Navigator.jumpTo_inside below] at h
      exact .inr ⟨step, led, below, (Except.ok.inj h).symm⟩
  · next partial' =>
    cases consistent with
    | loaded _ trace navigator => exact absurd trace (partial' _ _ navigator)
    | empty _ trace => exact .inl ⟨trace, (Except.ok.inj h).symm⟩

theorem exists_moveCursor (consistent : s.Consistent)
    (indexed : ∀ l, s.loaded = some l → l.Indexed ∧ l.length < wordLimit) (movement : Movement) :
    ∃ turn, s.moveCursor movement = .ok turn := by
  cases trace : s.loaded with
  | none =>
    have navigator : s.navigator = none := by simpa [trace] using consistent.navigator_iff
    simp only [moveCursor, trace, navigator]
    exact ⟨_, rfl⟩
  | some l =>
    obtain ⟨n, navigator, length, inside⟩ := consistent.exists_navigator trace
    obtain ⟨known, addressable⟩ := indexed l trace
    obtain ⟨target, led⟩ :=
      Navigator.exists_target known inside (by omega : n.cursor + 1 < wordLimit) movement
    simp only [moveCursor, trace, navigator, led]
    cases target with
    | none => exact ⟨_, rfl⟩
    | some step =>
      have below := (Navigator.target_inside inside led).1
      exact ⟨_, by simp only [bind, Except.bind, Navigator.jumpTo_inside below]; rfl⟩

/-- The frame stack at a cursor inside an indexed trace. -/
theorem callStack_cases {l : LoadedTrace} {n : Navigator} (indexed : l.Indexed)
    (trace : s.loaded = some l) (navigator : s.navigator = some n)
    (inside : n.cursor < l.length) :
    (∃ frames, s.callStack = .ok (some (.ok frames))) ∨
    ∃ m, l.frames.malformed = some m ∧
      s.callStack = .ok (some (.error (.malformedTrace m.step m.cause.message))) := by
  simp only [callStack, trace, navigator]
  rcases indexed.frameAt_cases inside with ⟨f, found⟩ | ⟨m, torn, -, -, -, -, refused⟩
  · left
    refine ⟨l.frames.lineage f, ?_⟩
    rw [FrameIndex.stackAt, found]
    rfl
  · right
    refine ⟨m, torn, ?_⟩
    rw [refused]
    rfl

/-- A load that is committed starts with the first step. -/
theorem cursor_commitLoad {generation steps : Nat} {answer : Except LoadError LoadedTrace}
    (committed : (s.commitLoad generation answer).result = .ok (.loaded steps)) :
    (s.commitLoad generation answer).session.cursor = some 0 := by
  unfold commitLoad at committed ⊢
  split at committed
  · cases committed
  · next accepted =>
    rw [if_neg accepted]
    cases answer with
    | error e => cases committed
    | ok l =>
      dsimp only at committed ⊢
      split at committed
      · cases committed
      · next n created =>
        obtain ⟨rfl, -⟩ := new?_eq_some created
        rfl

end Session

namespace Activity

variable {x : Activity}

theorem Reachable.indexed_trace (h : x.Reachable) :
    ∀ l, x.session.loaded = some l → l.Indexed := by
  refine h.invariant (P := fun y => ∀ l, y.session.loaded = some l → l.Indexed) ?_ ?_
  · intro _ _ _ l present
    cases present
  intro y action reachable indexed l present
  cases loadStep reachable.consistent action with
  | begun _ _ _ _ _ _ empty => cases empty.symm.trans present
  | unloaded _ _ _ _ empty => cases empty.symm.trans present
  | superseded _ _ _ _ session => exact indexed l (session ▸ present)
  | failed _ _ _ _ _ session =>
    rw [session] at present
    exact indexed l present
  | installed completes _ _ _ _ _ _ trace =>
    cases trace.symm.trans present
    obtain ⟨transaction, answer, -, ok⟩ := completes.exists_answer rfl
    exact indexed_of_indexAnswer ok
  | other _ keeps => exact indexed l (keeps.loaded ▸ present)

/-- What holds of the cursor of a session, in whatever state the session is. -/
structure CursorInside (x : Activity) : Prop where
  loaded_iff : x.session.status = .loaded ↔ x.session.loaded.isSome
  navigator_iff : x.session.loaded.isSome ↔ x.session.navigator.isSome
  inside : ∀ l n, x.session.loaded = some l → x.session.navigator = some n →
    n.length = l.length ∧ 0 < n.length ∧ n.cursor < n.length
  committed : ∀ action place answer ticket steps, action.Completes place answer →
    x.loads[place]? = some ticket →
    (x.session.commitLoad ticket.generation answer).result = .ok (.loaded steps) →
    (x.perform action).session.cursor = some 0
  target : ∀ l n movement step, x.session.loaded = some l → x.session.navigator = some n →
    n.target l.frames movement = .ok (some step) → step < n.length ∧ step ≠ n.cursor
  /-- Positions of steps are words, so that a movement is never without an answer. -/
  answered : ∀ l n movement, x.session.loaded = some l → x.session.navigator = some n →
    l.length < wordLimit → ∃ found, n.target l.frames movement = .ok found
  moved : ∀ movement turn, x.session.moveCursor movement = .ok turn →
    ∀ index length, turn.result ≠ .error (.outOfRange index length)
  /-- Where the frames at the cursor are not known, a malformed step is to blame. -/
  stack : ∀ l, x.session.loaded = some l →
    (∃ frames, x.session.callStack = .ok (some (.ok frames))) ∨
    ∃ m, l.frames.malformed = some m ∧
      x.session.callStack = .ok (some (.error (.malformedTrace m.step m.cause.message)))
  no_stack : x.session.loaded = none → x.session.callStack = .ok none

/-- Under every interleaving the status, the trace and the cursor of a session go
together, and neither a movement nor the frame stack at the cursor leaves the trace. -/
theorem cursor_stays_inside (config : SessionConfig) (provider : Provider)
    (converter : Converter) (actions : List Action) :
    CursorInside ((start config provider converter).run actions) := by
  have reachable := reachable_run config provider converter actions
  generalize (start config provider converter).run actions = x at reachable
  have consistent := reachable.consistent
  exact {
    loaded_iff := consistent.loaded_iff
    navigator_iff := consistent.navigator_iff
    inside := by
      intro l n trace found
      obtain ⟨n, navigator, length, inside⟩ := consistent.exists_navigator trace
      cases navigator.symm.trans found
      exact ⟨length, Nat.zero_lt_of_lt inside, inside⟩
    committed := by
      intro action place answer ticket steps completes found done
      rw [perform_completes completes, endLoad, found]
      exact Session.cursor_commitLoad done
    target := fun l n movement step _ navigator led =>
      Navigator.target_inside (consistent.inside navigator) led
    answered := by
      intro l n movement trace found addressable
      obtain ⟨n, navigator, length, inside⟩ := consistent.exists_navigator trace
      cases navigator.symm.trans found
      exact Navigator.exists_target (reachable.indexed_trace l trace) inside (by omega) movement
    moved := by
      intro movement turn made index length
      rcases Session.moveCursor_cases consistent made with
        ⟨-, rfl⟩ | ⟨l, n, -, -, ⟨-, rfl⟩ | ⟨step, -, -, rfl⟩⟩
      · simp
      · simp
      · simp [Session.moved]
    stack := by
      intro l trace
      obtain ⟨n, navigator, length, inside⟩ := consistent.exists_navigator trace
      have indexed := reachable.indexed_trace l trace
      exact Session.callStack_cases indexed trace navigator (length ▸ inside)
    no_stack := by
      intro trace
      simp [Session.callStack, trace] }

/-- The last step is two levels deeper than the step before it. -/
def tornTrace : Trace :=
  { rowTrace [0, 1, 2] with
    steps := [⟨0, Opcode.jumpdest, 0, none⟩, ⟨1, Opcode.jumpdest, 0, none⟩,
      ⟨2, Opcode.jumpdest, 2, none⟩] }

/-- A malformed trace is loaded, and the cursor goes to its malformed step. -/
def tornLoad : List Action :=
  [.beginLoad (.transaction rowTransaction), .answerLoad 0 rowTransaction (.ok tornTrace),
    .move .last]

theorem tornLoad_cursor_inside :
    CursorInside (rowStart.run tornLoad) ∧ (rowStart.run tornLoad).session.cursor = some 2 ∧
      (rowStart.run tornLoad).session.callStack =
        .ok (some (.error (.malformedTrace 2 (MalformedCause.depthJump 0 2).message))) ∧
      ((rowStart.run tornLoad).perform (.move .next)).session.cursor = some 2 ∧
      ((rowStart.run tornLoad).perform (.move .stepOverBack)).session.cursor = some 1 :=
  ⟨cursor_stays_inside { parallelIndexing := false } rowProvider rowConverter tornLoad,
    by decide +kernel, by rfl, by decide +kernel, by decide +kernel⟩

end Activity

end TraceDebug

import Mathlib.Data.Finset.Sort
import TraceDebug.Proofs.Breakpoint.NextHit

/-!
# Going from hit to hit

The hits of all indexed breakpoints together are one ascending row of steps, whatever
breakpoints they belong to. Going on to the next hit walks along this row, one step after
the other, and stops at its end; turning round leads back.
-/

namespace TraceDebug

namespace Direction

def opposite : Direction → Direction
  | .forward => .backward
  | .backward => .forward

variable {direction : Direction} {a b c current step : Nat} {hits : Set Nat}

theorem beyond_opposite : direction.opposite.Beyond a b ↔ direction.Beyond b a := by
  cases direction <;> rfl

theorem Beyond.trans (h : direction.Beyond a b) (h' : direction.Beyond b c) :
    direction.Beyond a c := by
  cases direction with
  | forward => exact Nat.lt_trans h h'
  | backward => exact Nat.lt_trans h' h

theorem Beyond.irrefl : ¬ direction.Beyond a a := by
  cases direction <;> exact Nat.lt_irrefl a

theorem beyond_trichotomy (direction : Direction) (a b : Nat) :
    direction.Beyond a b ∨ a = b ∨ direction.Beyond b a := by
  cases direction with
  | forward => exact Nat.lt_trichotomy a b
  | backward =>
    rcases Nat.lt_trichotomy a b with lower | same | upper
    · exact .inr (.inr lower)
    · exact .inr (.inl same)
    · exact .inl upper

/-- The nearest step has all others beyond it, in either direction. -/
theorem isNearest_iff : direction.IsNearest current hits step ↔
    direction.Beyond current step ∧ step ∈ hits ∧
      ∀ other ∈ hits, direction.Beyond current other → other = step ∨ direction.Beyond step other := by
  cases direction with
  | forward =>
    constructor
    · rintro ⟨⟨beyond, mem⟩, least⟩
      refine ⟨beyond, mem, ?_⟩
      intro other mem' beyond'
      exact (Nat.eq_or_lt_of_le (least ⟨beyond', mem'⟩)).imp_left Eq.symm
    · rintro ⟨beyond, mem, rest⟩
      refine ⟨⟨beyond, mem⟩, ?_⟩
      rintro other ⟨beyond', mem'⟩
      rcases rest other mem' beyond' with rfl | later
      · exact Nat.le_refl _
      · exact Nat.le_of_lt later
  | backward =>
    constructor
    · rintro ⟨⟨beyond, mem⟩, greatest⟩
      refine ⟨beyond, mem, ?_⟩
      intro other mem' beyond'
      exact Nat.eq_or_lt_of_le (greatest ⟨beyond', mem'⟩)
    · rintro ⟨beyond, mem, rest⟩
      refine ⟨⟨beyond, mem⟩, ?_⟩
      rintro other ⟨beyond', mem'⟩
      rcases rest other mem' beyond' with rfl | earlier
      · exact Nat.le_refl _
      · exact Nat.le_of_lt earlier

/-- From one of the steps to the nearest, and back. -/
theorem IsNearest.opposite (h : direction.IsNearest current hits step) (mem : current ∈ hits) :
    direction.opposite.IsNearest step hits current := by
  obtain ⟨beyond, -, rest⟩ := isNearest_iff.mp h
  apply isNearest_iff.mpr
  refine ⟨beyond_opposite.mpr beyond, mem, ?_⟩
  intro other mem' before
  rw [beyond_opposite] at before ⊢
  rcases beyond_trichotomy direction other current with earlier | same | later
  · exact .inr earlier
  · exact .inl same
  · -- Nothing lies between a step and the nearest one.
    rcases rest other mem' later with rfl | further
    · exact absurd before Beyond.irrefl
    · exact absurd (before.trans further) Beyond.irrefl

/-- The row has all of `hits` beyond `current`, each once and the nearest first. -/
structure Lists (direction : Direction) (current : Nat) (hits : Set Nat) (row : List Nat) : Prop where
  ordered : row.Pairwise direction.Beyond
  mem_iff : ∀ step, step ∈ row ↔ direction.Beyond current step ∧ step ∈ hits

theorem exists_lists (direction : Direction) (current : Nat) (finite : hits.Finite) :
    ∃ row, direction.Lists current hits row := by
  have bounded : {step | direction.Beyond current step ∧ step ∈ hits}.Finite :=
    finite.subset fun _ mem => mem.2
  have ascending : bounded.toFinset.sort.Pairwise (· < ·) :=
    bounded.toFinset.sortedLT_sort.pairwise
  cases direction with
  | forward => exact ⟨_, ascending, by simp⟩
  | backward => exact ⟨_, List.pairwise_reverse.mpr ascending, by simp⟩

variable {row : List Nat}

theorem Lists.head (h : direction.Lists current hits (step :: row)) :
    direction.IsNearest current hits step := by
  obtain ⟨beyond, mem⟩ := (h.mem_iff step).mp List.mem_cons_self
  apply isNearest_iff.mpr
  refine ⟨beyond, mem, ?_⟩
  intro other mem' beyond'
  rcases List.mem_cons.mp ((h.mem_iff other).mpr ⟨beyond', mem'⟩) with rfl | later
  · exact .inl rfl
  · exact .inr ((List.pairwise_cons.mp h.ordered).1 other later)

theorem Lists.tail (h : direction.Lists current hits (step :: row)) :
    direction.Lists step hits row where
  ordered := (List.pairwise_cons.mp h.ordered).2
  mem_iff := by
    intro other
    constructor
    · intro later
      have mem := ((h.mem_iff other).mp (List.mem_cons_of_mem _ later)).2
      exact ⟨(List.pairwise_cons.mp h.ordered).1 other later, mem⟩
    · rintro ⟨beyond, mem⟩
      have first := ((h.mem_iff step).mp List.mem_cons_self).1
      rcases List.mem_cons.mp ((h.mem_iff other).mpr ⟨first.trans beyond, mem⟩) with rfl | later
      · exact absurd beyond Beyond.irrefl
      · exact later

end Direction

namespace BreakpointEngine

variable {e : BreakpointEngine} {direction : Direction} {current : Nat}

/-- Where going on to the next hit leads after some rounds; nowhere once there is none. -/
def goOn (e : BreakpointEngine) (direction : Direction) : (current rounds : Nat) → Option Nat
  | current, 0 => some current
  | current, rounds + 1 => do e.goOn direction (← e.nextHit current direction) rounds

theorem nextHit_eq_none_iff
    (ascending : ∀ entry ∈ e.entries.entries, ∀ hits, entry.2 = some hits →
      hits.Pairwise (· ≤ ·)) :
    e.nextHit current direction = none ↔
      ∀ step ∈ e.indexedHits, ¬ direction.Beyond current step := by
  constructor
  · intro stays step mem beyond
    obtain ⟨nearest, isNearest⟩ := Direction.exists_isNearest beyond mem
    have found := (nextHit_eq_some_iff ascending current direction nearest).mpr isNearest
    cases stays.symm.trans found
  · intro none
    cases found : e.nextHit current direction with
    | none => rfl
    | some step =>
      have isNearest := (nextHit_eq_some_iff ascending current direction step).mp found
      exact absurd isNearest.beyond (none step isNearest.mem)

/-- Going on walks along the row of the hits ahead. -/
theorem goOn_eq_getElem?
    (ascending : ∀ entry ∈ e.entries.entries, ∀ hits, entry.2 = some hits →
      hits.Pairwise (· ≤ ·)) {row : List Nat}
    (lists : direction.Lists current e.indexedHits row) (rounds : Nat) :
    e.goOn direction current rounds = (current :: row)[rounds]? := by
  induction row generalizing current rounds with
  | nil =>
    cases rounds with
    | zero => rfl
    | succ rounds =>
      have stays : e.nextHit current direction = none := by
        apply (nextHit_eq_none_iff ascending).mpr
        intro step mem beyond
        cases (lists.mem_iff step).mpr ⟨beyond, mem⟩
      rw [goOn, stays]
      rfl
  | cons step row ih =>
    cases rounds with
    | zero => rfl
    | succ rounds =>
      have found : e.nextHit current direction = some step :=
        (nextHit_eq_some_iff ascending current direction step).mpr lists.head
      rw [goOn, found]
      exact ih lists.tail rounds

theorem finite_indexedHits (e : BreakpointEngine) : e.indexedHits.Finite := by
  apply (List.finite_toSet (e.entries.entries.filterMap Prod.snd).flatten).subset
  rintro step ⟨entry, mem, hits, held, inside⟩
  exact List.mem_flatten.mpr ⟨hits, List.mem_filterMap.mpr ⟨entry, mem, held⟩, inside⟩

/-- From a position, going on in a direction visits the hits of all indexed breakpoints. -/
structure WalksHits (e : BreakpointEngine) (current : Nat) (direction : Direction) : Prop where
  nearest : ∀ step, e.nextHit current direction = some step ↔
    direction.IsNearest current e.indexedHits step
  stays : e.nextHit current direction = none ↔
    ∀ step ∈ e.indexedHits, ¬ direction.Beyond current step
  /-- Each hit ahead is visited once, in order, and behind the last one the walk is over. -/
  visits : ∃ row, direction.Lists current e.indexedHits row ∧
    ∀ rounds, e.goOn direction current rounds = (current :: row)[rounds]?
  returns : current ∈ e.indexedHits → ∀ step, e.nextHit current direction = some step →
    e.nextHit step direction.opposite = some current

/-- With ascending hits, going on to the next hit walks along all hits in order and back. -/
theorem next_hit_walks_hits
    (ascending : ∀ entry ∈ e.entries.entries, ∀ hits, entry.2 = some hits →
      hits.Pairwise (· ≤ ·)) (current : Nat) (direction : Direction) :
    e.WalksHits current direction where
  nearest := nextHit_eq_some_iff ascending current direction
  stays := nextHit_eq_none_iff ascending
  visits := by
    obtain ⟨row, lists⟩ := direction.exists_lists current e.finite_indexedHits
    exact ⟨row, lists, goOn_eq_getElem? ascending lists⟩
  returns := by
    intro mem step found
    apply (nextHit_eq_some_iff ascending step direction.opposite current).mpr
    exact ((nextHit_eq_some_iff ascending current direction step).mp found).opposite mem

/-- Three breakpoints with common hits, one without any, and one that is not indexed. -/
def overlappingHits : BreakpointEngine where
  entries := .ofList [(⟨⟨"Token.sol"⟩, 10⟩, some [20, 45, 80]),
    (⟨⟨"contracts/Token.sol"⟩, 10⟩, some [20, 45, 80]), (⟨⟨"Vault.sol"⟩, 3⟩, some [45, 46]),
    (⟨⟨"Vault.sol"⟩, 4⟩, some []), (⟨⟨"Vault.sol"⟩, 5⟩, none)]
  artifact := none
  resolver := ⟨lineBreakConverter, compressedReader⟩
  parallel := false
  revision := 5

theorem overlappingHits_walks :
    (∀ entry ∈ overlappingHits.entries.entries, ∀ hits, entry.2 = some hits →
      hits.Pairwise (· ≤ ·)) ∧
    overlappingHits.WalksHits 20 .forward ∧
    (List.range 5).map (overlappingHits.goOn .forward 20) =
      [some 20, some 45, some 46, some 80, none] ∧
    overlappingHits.nextHit 45 .backward = some 20 := by
  have ascending : ∀ entry ∈ overlappingHits.entries.entries, ∀ hits, entry.2 = some hits →
      hits.Pairwise (· ≤ ·) := by
    have checked : ∀ entry ∈ overlappingHits.entries.entries,
        (entry.2.getD []).Pairwise (· ≤ ·) := by decide +kernel
    intro entry mem hits held
    have sorted := checked entry mem
    rwa [held] at sorted
  have walks := next_hit_walks_hits ascending 20 .forward
  have mem : 20 ∈ overlappingHits.indexedHits := by
    have held : (⟨⟨"Token.sol"⟩, 10⟩, some [20, 45, 80]) ∈ overlappingHits.entries.entries := by
      decide +kernel
    exact ⟨_, held, _, rfl, by decide⟩
  have found : overlappingHits.nextHit 20 .forward = some 45 := by decide +kernel
  exact ⟨ascending, walks, by decide +kernel, walks.returns mem 45 found⟩

end BreakpointEngine

end TraceDebug

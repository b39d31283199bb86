import Mathlib.Data.List.TakeWhile
import Mathlib.Order.Lattice.Nat
import Mathlib.Order.Bounds.Basic
import TraceDebug.Breakpoint.Engine

/-!
# The nearest hit

The search for the next hit looks into the ascending hits of each breakpoint and
takes the nearest of what it finds there.
-/

namespace TraceDebug

def Direction.Beyond (direction : Direction) (current step : Nat) : Prop :=
  match direction with
  | .forward => current < step
  | .backward => step < current

/-- The nearest of some steps strictly beyond a step. -/
def Direction.IsNearest (direction : Direction) (current : Nat) (hits : Set Nat) (step : Nat) :
    Prop :=
  match direction with
  | .forward => IsLeast {hit | current < hit ∧ hit ∈ hits} step
  | .backward => IsGreatest {hit | hit < current ∧ hit ∈ hits} step

theorem Direction.IsNearest.mem {direction : Direction} {current step : Nat} {hits : Set Nat}
    (h : direction.IsNearest current hits step) : step ∈ hits := by
  cases direction with
  | forward => exact h.1.2
  | backward => exact h.1.2

theorem Direction.IsNearest.beyond {direction : Direction} {current step : Nat} {hits : Set Nat}
    (h : direction.IsNearest current hits step) : direction.Beyond current step := by
  cases direction with
  | forward => exact h.1.1
  | backward => exact h.1.1

theorem Direction.exists_isNearest {direction : Direction} {current hit : Nat} {hits : Set Nat}
    (beyond : direction.Beyond current hit) (mem : hit ∈ hits) :
    ∃ step, direction.IsNearest current hits step := by
  cases direction with
  | forward =>
    have some : {hit | current < hit ∧ hit ∈ hits}.Nonempty := ⟨hit, beyond, mem⟩
    exact ⟨_, Nat.sInf_mem some, fun _ => Nat.sInf_le⟩
  | backward =>
    have bounded : BddAbove {hit | hit < current ∧ hit ∈ hits} :=
      ⟨current, fun _ below => Nat.le_of_lt below.1⟩
    exact ⟨_, Nat.sSup_mem ⟨hit, beyond, mem⟩ bounded, fun _ => le_csSup bounded⟩

theorem Direction.IsNearest.unique {direction : Direction} {current step other : Nat}
    {hits : Set Nat} (h : direction.IsNearest current hits step)
    (h' : direction.IsNearest current hits other) : step = other := by
  cases direction with
  | forward => exact IsLeast.unique h h'
  | backward => exact IsGreatest.unique h h'

namespace BreakpointEngine

/-- All hits of the indexed breakpoints. -/
def indexedHits (e : BreakpointEngine) : Set Nat :=
  {step | ∃ entry ∈ e.entries.entries, ∃ hits, entry.2 = some hits ∧ step ∈ hits}

theorem hitAfter_mem {current step : Nat} {hits : List Nat}
    (h : hitAfter current hits = some step) : step ∈ hits ∧ current < step :=
  ⟨List.mem_of_find?_eq_some h, by simpa using List.find?_some h⟩

theorem exists_hitAfter {current step : Nat} {hits : List Nat}
    (ascending : hits.Pairwise (· ≤ ·)) (mem : step ∈ hits) (beyond : current < step) :
    ∃ first, hitAfter current hits = some first ∧ first ≤ step := by
  induction hits with
  | nil => cases mem
  | cons hit rest ih =>
    rw [List.pairwise_cons] at ascending
    by_cases after : current < hit
    · refine ⟨hit, by simp [hitAfter, after], ?_⟩
      rcases List.mem_cons.mp mem with rfl | later
      · exact Nat.le_refl _
      · exact ascending.1 step later
    · have later : step ∈ rest := by
        rcases List.mem_cons.mp mem with rfl | later
        · exact absurd beyond after
        · exact later
      obtain ⟨first, found, least⟩ := ih ascending.2 later
      exact ⟨first, by simpa [hitAfter, after] using found, least⟩

theorem hitBefore_mem {current step : Nat} {hits : List Nat}
    (h : hitBefore current hits = some step) : step ∈ hits ∧ step < current := by
  have mem := List.mem_of_getLast? h
  exact ⟨(List.takeWhile_sublist _).mem mem, by simpa using List.mem_takeWhile_imp mem⟩

theorem hitBefore_cons {current hit : Nat} (below : hit < current) (rest : List Nat) :
    hitBefore current (hit :: rest) = some ((hitBefore current rest).getD hit) := by
  simp [hitBefore, below, List.getLast?_cons]

theorem exists_hitBefore {current step : Nat} {hits : List Nat}
    (ascending : hits.Pairwise (· ≤ ·)) (mem : step ∈ hits) (beyond : step < current) :
    ∃ last, hitBefore current hits = some last ∧ step ≤ last := by
  induction hits with
  | nil => cases mem
  | cons hit rest ih =>
    rw [List.pairwise_cons] at ascending
    rcases List.mem_cons.mp mem with rfl | later
    · rw [hitBefore_cons beyond]
      cases found : hitBefore current rest with
      | none => exact ⟨step, rfl, Nat.le_refl _⟩
      | some last => exact ⟨last, rfl, ascending.1 last (hitBefore_mem found).1⟩
    · obtain ⟨last, found, greatest⟩ := ih ascending.2 later
      have below : hit < current := Nat.lt_of_le_of_lt (ascending.1 step later) beyond
      exact ⟨last, by rw [hitBefore_cons below, found]; rfl, greatest⟩

/-- A list has the least element of a set if it lies in the set and below all of it. -/
theorem min?_eq_some_iff_isLeast {l : List Nat} {s : Set Nat} (subset : ∀ x ∈ l, x ∈ s)
    (below : ∀ x ∈ s, ∃ y ∈ l, y ≤ x) (step : Nat) : l.min? = some step ↔ IsLeast s step := by
  rw [List.min?_eq_some_iff]
  constructor
  · rintro ⟨mem, least⟩
    refine ⟨subset step mem, ?_⟩
    intro x inside
    obtain ⟨y, found, le⟩ := below x inside
    exact Nat.le_trans (least y found) le
  · rintro ⟨inside, least⟩
    obtain ⟨y, found, le⟩ := below step inside
    have same : y = step := Nat.le_antisymm le (least (subset y found))
    exact ⟨same ▸ found, fun x mem => least (subset x mem)⟩

theorem max?_eq_some_iff_isGreatest {l : List Nat} {s : Set Nat} (subset : ∀ x ∈ l, x ∈ s)
    (above : ∀ x ∈ s, ∃ y ∈ l, x ≤ y) (step : Nat) : l.max? = some step ↔ IsGreatest s step := by
  rw [List.max?_eq_some_iff]
  constructor
  · rintro ⟨mem, greatest⟩
    refine ⟨subset step mem, ?_⟩
    intro x inside
    obtain ⟨y, found, le⟩ := above x inside
    exact Nat.le_trans le (greatest y found)
  · rintro ⟨inside, greatest⟩
    obtain ⟨y, found, le⟩ := above step inside
    have same : y = step := Nat.le_antisymm (greatest (subset y found)) le
    exact ⟨same ▸ found, fun x mem => greatest (subset x mem)⟩

theorem mem_filterMap_indexed {e : BreakpointEngine} {search : List Nat → Option Nat} {step : Nat} :
    step ∈ (e.entries.entries.filterMap Prod.snd).filterMap search ↔
      ∃ entry ∈ e.entries.entries, ∃ hits, entry.2 = some hits ∧ search hits = some step := by
  simp only [List.mem_filterMap]
  constructor
  · rintro ⟨hits, ⟨entry, mem, held⟩, found⟩
    exact ⟨entry, mem, hits, held, found⟩
  · rintro ⟨entry, mem, hits, held, found⟩
    exact ⟨hits, ⟨entry, mem, held⟩, found⟩

/-- With ascending hits the search finds the nearest of all hits. -/
theorem nextHit_eq_some_iff {e : BreakpointEngine}
    (ascending : ∀ entry ∈ e.entries.entries, ∀ hits, entry.2 = some hits →
      hits.Pairwise (· ≤ ·)) (current : Nat) (direction : Direction) (step : Nat) :
    e.nextHit current direction = some step ↔
      direction.IsNearest current e.indexedHits step := by
  cases direction with
  | forward =>
    apply min?_eq_some_iff_isLeast
    · intro x mem
      obtain ⟨entry, mem, hits, held, found⟩ := mem_filterMap_indexed.mp mem
      obtain ⟨inside, beyond⟩ := hitAfter_mem found
      exact ⟨beyond, entry, mem, hits, held, inside⟩
    · rintro x ⟨beyond, entry, mem, hits, held, inside⟩
      obtain ⟨first, found, before⟩ := exists_hitAfter (ascending _ mem _ held) inside beyond
      exact ⟨first, mem_filterMap_indexed.mpr ⟨entry, mem, hits, held, found⟩, before⟩
  | backward =>
    apply max?_eq_some_iff_isGreatest
    · intro x mem
      obtain ⟨entry, mem, hits, held, found⟩ := mem_filterMap_indexed.mp mem
      obtain ⟨inside, beyond⟩ := hitBefore_mem found
      exact ⟨beyond, entry, mem, hits, held, inside⟩
    · rintro x ⟨beyond, entry, mem, hits, held, inside⟩
      obtain ⟨last, found, after⟩ := exists_hitBefore (ascending _ mem _ held) inside beyond
      exact ⟨last, mem_filterMap_indexed.mpr ⟨entry, mem, hits, held, found⟩, after⟩

end BreakpointEngine

end TraceDebug

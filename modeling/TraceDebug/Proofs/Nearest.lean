import Mathlib.Order.Bounds.Basic

/-!
# The nearest of a set

A search gives an element of a set, or nothing. Where it passes by no element of the set,
what it gives is the nearest one, and it gives nothing only if the set is empty.
-/

namespace TraceDebug

variable {α : Type} [PartialOrder α] {s : Set α} {found : Option α}

/-- Every element of the set stands at what was found or behind it. -/
theorem found_iff_isLeast (mem : ∀ first, found = some first → first ∈ s)
    (reached : ∀ x ∈ s, ∃ first, found = some first ∧ first ≤ x) :
    (∀ first, found = some first ↔ IsLeast s first) ∧ (found = none ↔ s = ∅) := by
  have least : ∀ first, found = some first → IsLeast s first := by
    intro first same
    refine ⟨mem first same, ?_⟩
    intro x inside
    obtain ⟨first', same', le⟩ := reached x inside
    cases same.symm.trans same'
    exact le
  constructor
  · intro first
    refine ⟨least first, ?_⟩
    intro isLeast
    obtain ⟨first', same, -⟩ := reached first isLeast.1
    rw [same, (least first' same).unique isLeast]
  · constructor
    · intro nothing
      apply Set.eq_empty_of_forall_notMem
      intro x inside
      obtain ⟨first, same, -⟩ := reached x inside
      cases nothing.symm.trans same
    · intro empty
      apply Option.eq_none_iff_forall_ne_some.mpr
      intro first same
      exact absurd (empty ▸ mem first same) (Set.notMem_empty first)

/-- Seen from the other end. -/
theorem found_iff_isGreatest (mem : ∀ last, found = some last → last ∈ s)
    (reached : ∀ x ∈ s, ∃ last, found = some last ∧ x ≤ last) :
    (∀ last, found = some last ↔ IsGreatest s last) ∧ (found = none ↔ s = ∅) :=
  found_iff_isLeast (α := αᵒᵈ) mem reached

end TraceDebug

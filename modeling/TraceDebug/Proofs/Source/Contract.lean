import Mathlib.Data.String.Basic
import TraceDebug.Proofs.Table
import TraceDebug.Source.Resolver

/-!
# The contract of a piece of code

Of the compiled contracts that match a piece of code the one with the least name is
chosen. Nothing else about how the contracts are listed matters for the choice.
-/

namespace TraceDebug

def CodeKind.Matches (code : Bytes) (c : CompiledContract) : CodeKind → Prop
  | .runtime => c.deployedBytecode ≠ [] ∧ Metadata.strip code = Metadata.strip c.deployedBytecode
  | .creation => c.bytecode ≠ [] ∧ c.bytecode <+: code

theorem CodeKind.accepts_iff {kind : CodeKind} {code : Bytes} {c : CompiledContract} :
    kind.accepts code c = true ↔ kind.Matches code c := by
  cases kind <;> simp [accepts, Matches, Metadata.sameRuntimeCode]

namespace Compilation

variable {c : Compilation} {code : Bytes} {kind : CodeKind}

/-- The contract with the least name among the listed ones that match the code. -/
structure Chosen (contracts : List (String × CompiledContract)) (code : Bytes) (kind : CodeKind)
    (name : String) (contract : CompiledContract) : Prop where
  listed : (name, contract) ∈ contracts
  matching : kind.Matches code contract
  least : ∀ other rival, (other, rival) ∈ contracts → kind.Matches code rival → name ≤ other

theorem Chosen.unique {name other : String} {contract rival : CompiledContract}
    (h : Chosen c.contracts.entries code kind name contract)
    (k : Chosen c.contracts.entries code kind other rival) :
    (name, contract) = (other, rival) := by
  obtain rfl : name = other :=
    le_antisymm (h.least _ _ k.listed k.matching) (k.least _ _ h.listed h.matching)
  have one := Table.get?_of_mem h.listed
  rw [Table.get?_of_mem k.listed] at one
  exact congrArg (Prod.mk name) (Option.some.inj one).symm

theorem chosen_of_find? {name : String} {contract : CompiledContract}
    (h : c.find? code kind = some (name, contract)) :
    Chosen c.contracts.entries code kind name contract := by
  obtain ⟨accepted, before, after, entries, refused⟩ := List.find?_eq_some_iff_append.mp h
  refine ⟨?_, CodeKind.accepts_iff.mp accepted, ?_⟩
  · rw [entries]
    simp
  · intro other rival mem matching
    have ascending := c.contracts.ascending
    rw [entries] at mem ascending
    rcases List.mem_append.mp mem with mem | mem
    · have no := refused _ mem
      rw [CodeKind.accepts_iff.mpr matching] at no
      cases no
    · rcases List.mem_cons.mp mem with same | mem
      · cases same
        exact le_refl _
      · have later := List.rel_of_pairwise_cons (List.pairwise_append.mp ascending).2.1 mem
        exact le_of_lt (compare_lt_iff_lt.mp later)

theorem find?_eq_none_iff :
    c.find? code kind = none ↔
      ∀ name contract, (name, contract) ∈ c.contracts.entries → ¬ kind.Matches code contract := by
  unfold find?
  simp only [List.find?_eq_none, CodeKind.accepts_iff, Prod.forall]

theorem find?_eq_some_iff {name : String} {contract : CompiledContract} :
    c.find? code kind = some (name, contract) ↔
      Chosen c.contracts.entries code kind name contract := by
  refine ⟨chosen_of_find?, ?_⟩
  intro chosen
  cases found : c.find? code kind with
  | none => exact absurd chosen.matching (find?_eq_none_iff.mp found _ _ chosen.listed)
  | some entry => exact congrArg some ((chosen_of_find? found).unique chosen)

/-- The matching contract of least name, found in a listing of any order. -/
def leastIn (contracts : List (String × CompiledContract)) (code : Bytes) (kind : CodeKind) :
    Option (String × CompiledContract) :=
  (contracts.filter fun entry => kind.accepts code entry.2).minOn? Prod.fst

theorem leastIn_of_perm {contracts : List (String × CompiledContract)}
    (listed : contracts.Perm c.contracts.entries) :
    leastIn contracts code kind = c.find? code kind := by
  have mem_iff {entry : String × CompiledContract} :
      entry ∈ contracts.filter (fun entry => kind.accepts code entry.2) ↔
        entry ∈ c.contracts.entries ∧ kind.Matches code entry.2 := by
    rw [List.mem_filter, listed.mem_iff, CodeKind.accepts_iff]
  unfold leastIn
  by_cases none : contracts.filter (fun entry => kind.accepts code entry.2) = []
  · rw [none, List.minOn?_nil]
    symm
    apply find?_eq_none_iff.mpr
    intro name contract mem matching
    have kept := mem_iff.mpr ⟨mem, matching⟩
    rw [none] at kept
    cases kept
  · rw [List.minOn?_eq_some_minOn none]
    obtain ⟨mem, matching⟩ := mem_iff.mp (List.minOn_mem (f := Prod.fst) (h := none))
    symm
    apply find?_eq_some_iff.mpr
    refine ⟨mem, matching, ?_⟩
    intro other rival mem matching
    exact List.apply_minOn_le_of_mem (f := Prod.fst) (mem_iff.mpr ⟨mem, matching⟩)

end Compilation

end TraceDebug

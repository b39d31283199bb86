import Mathlib.Data.List.Induction
import Mathlib.Data.List.Nodup
import TraceDebug.Proofs.Table

/-!
# Tables and lists of pairs

A table that takes up a list of pairs holds the last value of each key, and its entries are
the only ascending list that does. Tables with the same look-ups are the same. A listing of a
table in any order, sorted by its keys, is the list of its entries.
-/

namespace TraceDebug.Table

variable {κ ν : Type}

/-- The last of the pairs with the given key. -/
def LastOf (pairs : List (κ × ν)) (k : κ) (v : ν) : Prop :=
  ∃ before after, pairs = before ++ (k, v) :: after ∧ ∀ e ∈ after, e.1 ≠ k

theorem lastOf_append_singleton_iff {pairs : List (κ × ν)} {k k' : κ} {v v' : ν} :
    LastOf (pairs ++ [(k, v)]) k' v' ↔ (k' = k ∧ v' = v) ∨ (k' ≠ k ∧ LastOf pairs k' v') := by
  constructor
  · rintro ⟨before, after, split, last⟩
    rcases List.eq_nil_or_concat after with rfl | ⟨after, e, rfl⟩
    · obtain ⟨-, same⟩ := List.append_inj' split rfl
      cases same
      exact .inl ⟨rfl, rfl⟩
    · rw [List.concat_eq_append, ← List.cons_append, ← List.append_assoc] at split
      obtain ⟨rfl, same⟩ := List.append_inj' split rfl
      cases same
      refine .inr ⟨(last (k, v) (by simp)).symm, before, after, rfl, ?_⟩
      exact fun e mem => last e (by simp [mem])
  · rintro (⟨rfl, rfl⟩ | ⟨other, before, after, rfl, last⟩)
    · exact ⟨pairs, [], rfl, nofun⟩
    · refine ⟨before, after ++ [(k, v)], by simp, ?_⟩
      intro e mem
      rcases List.mem_append.mp mem with mem | mem
      · exact last e mem
      · rw [List.mem_singleton.mp mem]
        exact other.symm

section
variable [Ord κ] [Std.TransOrd κ]

theorem ne_of_compare_lt {a b : κ} (lt : compare a b = .lt) : a ≠ b := by
  rintro rfl
  have eq : compare a a = .eq := Std.ReflCmp.compare_self
  rw [eq] at lt
  cases lt

theorem nodup_entries (t : Table κ ν) : t.entries.Nodup := by
  refine t.ascending.imp fun lt => ?_
  rintro rfl
  exact ne_of_compare_lt lt rfl

theorem value_unique {t : Table κ ν} {k : κ} {v w : ν} (hv : (k, v) ∈ t.entries)
    (hw : (k, w) ∈ t.entries) : v = w :=
  Option.some.inj ((get?_of_mem hv).symm.trans (get?_of_mem hw))

theorem ext_mem {s t : Table κ ν} (same : ∀ k v, (k, v) ∈ s.entries ↔ (k, v) ∈ t.entries) :
    s = t := by
  apply ext
  have perm : s.entries.Perm t.entries :=
    (List.perm_ext_iff_of_nodup s.nodup_entries t.nodup_entries).mpr fun e => same e.1 e.2
  refine perm.eq_of_pairwise ?_ s.ascending t.ascending
  intro a b _ _ lt gt
  rw [Std.OrientedCmp.gt_of_lt lt] at gt
  cases gt

end

section
variable [Ord κ] [Std.LawfulEqOrd κ]

/-- An entry of another key survives an insertion. -/
theorem mem_insertEntry_of_ne {k : κ} {v : ν} {l : List (κ × ν)} {e : κ × ν} (mem : e ∈ l)
    (other : e.1 ≠ k) : e ∈ insertEntry k v l := by
  induction l with
  | nil => cases mem
  | cons d rest ih =>
    unfold insertEntry
    split
    · exact List.mem_cons_of_mem _ mem
    · next eq =>
      rcases List.mem_cons.mp mem with rfl | mem
      · exact absurd (Std.LawfulEqOrd.eq_of_compare eq).symm other
      · exact List.mem_cons_of_mem _ mem
    · rcases List.mem_cons.mp mem with rfl | mem
      · exact List.mem_cons_self
      · exact List.mem_cons_of_mem _ (ih mem)

variable [Std.TransOrd κ]

theorem mem_entries_iff {t : Table κ ν} {k : κ} {v : ν} :
    (k, v) ∈ t.entries ↔ t.get? k = some v :=
  ⟨get?_of_mem, mem_of_get?⟩

theorem mem_insert_iff {t : Table κ ν} {k k' : κ} {v v' : ν} :
    (k', v') ∈ (t.insert k v).entries ↔ (k' = k ∧ v' = v) ∨ (k' ≠ k ∧ (k', v') ∈ t.entries) := by
  constructor
  · intro mem
    by_cases same : k' = k
    · subst same
      exact .inl ⟨rfl, value_unique mem (entry_mem_insertEntry k' v t.entries)⟩
    · rcases mem_insertEntry mem with eq | mem
      · exact absurd (congrArg Prod.fst eq) same
      · exact .inr ⟨same, mem⟩
  · rintro (⟨rfl, rfl⟩ | ⟨other, mem⟩)
    · exact entry_mem_insertEntry k' v' t.entries
    · exact mem_insertEntry_of_ne mem other

theorem mem_ofList_iff {pairs : List (κ × ν)} {k : κ} {v : ν} :
    (k, v) ∈ (ofList pairs).entries ↔ LastOf pairs k v := by
  induction pairs using List.reverseRecOn with
  | nil =>
    refine iff_of_false nofun ?_
    rintro ⟨before, after, split, -⟩
    cases before <;> cases split
  | append_singleton pairs e ih =>
    rw [ofList, List.foldl_append, List.foldl_cons, List.foldl_nil, mem_insert_iff,
      lastOf_append_singleton_iff]
    rw [ofList] at ih
    rw [ih]

theorem ext_get? {s t : Table κ ν} (same : ∀ k, s.get? k = t.get? k) : s = t := by
  apply ext_mem
  intro k v
  rw [mem_entries_iff, mem_entries_iff, same]

/-- The entries of a table, taken up in order, make the table. -/
theorem ofList_entries (t : Table κ ν) : ofList t.entries = t := by
  apply ext_mem
  intro k v
  rw [mem_ofList_iff]
  constructor
  · rintro ⟨before, after, split, -⟩
    rw [split]
    exact List.mem_append_right _ List.mem_cons_self
  · intro mem
    obtain ⟨before, after, split⟩ := List.append_of_mem mem
    refine ⟨before, after, split, ?_⟩
    intro e later same
    have ascending := t.ascending
    rw [split] at ascending
    have lt := List.rel_of_pairwise_cons (List.pairwise_append.mp ascending).2.1 later
    exact ne_of_compare_lt lt same.symm

theorem eq_of_isLE {t : Table κ ν} {d e : κ × ν} (hd : d ∈ t.entries) (he : e ∈ t.entries)
    (le : (compare d.1 e.1).isLE = true) (ge : (compare e.1 d.1).isLE = true) : d = e := by
  obtain ⟨k, v⟩ := d
  obtain ⟨k', w⟩ := e
  obtain rfl : k = k' := Std.LawfulEqOrd.eq_of_compare (Std.OrientedCmp.isLE_antisymm le ge)
  rw [value_unique hd he]

end

theorem pairwise_isLE [Ord κ] (t : Table κ ν) :
    t.entries.Pairwise fun d e => (compare d.1 e.1).isLE = true :=
  t.ascending.imp fun lt => by rw [lt]; rfl

/-- A listing, sorted by the keys. -/
def sortByKey [Ord κ] (listing : List (κ × ν)) : List (κ × ν) :=
  listing.mergeSort fun d e => (compare d.1 e.1).isLE

theorem pairwise_sortByKey [Ord κ] [Std.TransOrd κ] (listing : List (κ × ν)) :
    (sortByKey listing).Pairwise fun d e => (compare d.1 e.1).isLE = true := by
  apply List.pairwise_mergeSort
  · exact fun _ _ _ => Std.TransOrd.isLE_trans
  · intro d e
    have turned : (compare e.1 d.1).isLE = (compare d.1 e.1).isGE :=
      Std.OrientedCmp.isGE_eq_isLE.symm
    rw [turned]
    cases compare d.1 e.1 <;> rfl

/-- Whatever order the pairs of a table are listed in, sorting them gives its entries. -/
theorem sortByKey_of_perm [Ord κ] [Std.TransOrd κ] [Std.LawfulEqOrd κ] {t : Table κ ν}
    {listing : List (κ × ν)} (listed : listing.Perm t.entries) :
    sortByKey listing = t.entries := by
  have perm : (sortByKey listing).Perm t.entries := (List.mergeSort_perm _ _).trans listed
  apply perm.eq_of_pairwise _ (pairwise_sortByKey listing) t.pairwise_isLE
  intro d e hd he
  exact eq_of_isLE (perm.subset hd) he

end TraceDebug.Table

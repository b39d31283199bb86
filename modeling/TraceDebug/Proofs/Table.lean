import TraceDebug.Table

/-!
# Look-ups in tables

What inserting does to the entries of a table, and look-ups of keys that are there.
-/

namespace TraceDebug.Table

variable {κ ν : Type} [Ord κ]

/-- Inserting keeps the keys. -/
theorem exists_key_insertEntry {k : κ} {v : ν} {l : List (κ × ν)} {e : κ × ν} (mem : e ∈ l) :
    ∃ d ∈ insertEntry k v l, d.1 = e.1 := by
  induction l with
  | nil => cases mem
  | cons c rest ih =>
    unfold insertEntry
    split
    · exact ⟨e, List.mem_cons_of_mem _ mem, rfl⟩
    · rcases List.mem_cons.mp mem with rfl | mem
      · exact ⟨_, List.mem_cons_self, rfl⟩
      · exact ⟨e, List.mem_cons_of_mem _ mem, rfl⟩
    · rcases List.mem_cons.mp mem with rfl | mem
      · exact ⟨e, List.mem_cons_self, rfl⟩
      · obtain ⟨d, found, eq⟩ := ih mem
        exact ⟨d, List.mem_cons_of_mem _ found, eq⟩

/-- The entry of a key that is there is the only one of its key. -/
theorem find?_of_mem [Std.TransOrd κ] {t : Table κ ν} {e : κ × ν} (mem : e ∈ t.entries) :
    t.entries.find? (fun d => compare e.1 d.1 == .eq) = some e := by
  obtain ⟨before, after, eq⟩ := List.append_of_mem mem
  have ascending := t.ascending
  rw [eq, List.pairwise_append] at ascending
  have smaller : before.find? (fun d => compare e.1 d.1 == .eq) = none := by
    apply List.find?_eq_none.mpr
    intro d earlier
    have lt : compare d.1 e.1 = .lt := ascending.2.2 d earlier e List.mem_cons_self
    simp [Std.OrientedCmp.gt_of_lt lt]
  rw [eq, List.find?_append, smaller, Option.none_or, List.find?_cons_of_pos (by simp)]

theorem get?_of_mem [Std.TransOrd κ] {t : Table κ ν} {e : κ × ν} (mem : e ∈ t.entries) :
    t.get? e.1 = some e.2 := by
  rw [get?, find?_of_mem mem]
  rfl

/-- Whether a key is in a table can be seen from the keys. -/
theorem contains_congr {s t : Table κ ν} (same : s.keys = t.keys) (k : κ) :
    s.contains k = t.contains k := by
  have of_keys : ∀ u : Table κ ν, u.contains k = u.keys.any fun d => compare k d == .eq := by
    intro u
    rw [contains, keys, List.any_map]
    rfl
  rw [of_keys, of_keys, same]

theorem contains_insert_self [Std.TransOrd κ] (t : Table κ ν) (k : κ) (v : ν) :
    (t.insert k v).contains k = true := by
  simp only [contains, insert]
  induction t.entries with
  | nil => simp [insertEntry]
  | cons c rest ih =>
    unfold insertEntry
    split
    · simp
    · next eq => simp [eq]
    · rw [List.any_cons, ih, Bool.or_true]

theorem contains_erase_self (t : Table κ ν) (k : κ) : (t.erase k).contains k = false := by
  simp [contains, erase]

section
variable [Std.LawfulEqOrd κ]

theorem entry_mem_insertEntry (k : κ) (v : ν) (l : List (κ × ν)) : (k, v) ∈ insertEntry k v l := by
  induction l with
  | nil => simp [insertEntry]
  | cons c rest ih =>
    unfold insertEntry
    split
    · exact List.mem_cons_self
    · next eq =>
      rw [Std.LawfulEqOrd.eq_of_compare eq]
      exact List.mem_cons_self
    · exact List.mem_cons_of_mem _ ih

theorem mem_insertEntry {k : κ} {v : ν} {l : List (κ × ν)} {e : κ × ν}
    (mem : e ∈ insertEntry k v l) : e = (k, v) ∨ e ∈ l := by
  induction l with
  | nil => exact .inl (by simpa [insertEntry] using mem)
  | cons c rest ih =>
    unfold insertEntry at mem
    split at mem
    · exact List.mem_cons.mp mem
    · next eq =>
      rcases List.mem_cons.mp mem with rfl | mem
      · exact .inl (by rw [Std.LawfulEqOrd.eq_of_compare eq])
      · exact .inr (List.mem_cons_of_mem _ mem)
    · rcases List.mem_cons.mp mem with rfl | mem
      · exact .inr List.mem_cons_self
      · exact (ih mem).imp_right (List.mem_cons_of_mem _)

theorem mem_of_get? {t : Table κ ν} {k : κ} {v : ν} (found : t.get? k = some v) :
    (k, v) ∈ t.entries := by
  obtain ⟨entry, first, rfl⟩ := Option.map_eq_some_iff.mp found
  have same : k = entry.1 :=
    Std.LawfulEqOrd.eq_of_compare (by simpa using List.find?_some first)
  rw [same]
  exact List.mem_of_find?_eq_some first

theorem contains_iff {t : Table κ ν} {k : κ} :
    t.contains k = true ↔ ∃ e ∈ t.entries, e.1 = k := by
  simp only [contains, List.any_eq_true, beq_iff_eq]
  refine exists_congr fun e => and_congr_right fun _ => ?_
  exact ⟨fun eq => (Std.LawfulEqOrd.eq_of_compare eq).symm,
    fun eq => eq ▸ Std.ReflCmp.compare_self⟩

end

end TraceDebug.Table

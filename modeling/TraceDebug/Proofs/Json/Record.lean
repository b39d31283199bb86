import TraceDebug.Json.Record

/-!
# Reading what was written

Words, lists and records are read back from their JSON values. The fields of a record are
found by their names.
-/

namespace TraceDebug.Json

theorem word?_nat {n : Nat} (word : n < wordLimit) : (nat n).word? = some n := by
  rw [word?, natBelow?_nat, if_pos word]

theorem byte?_nat (b : UInt8) : (nat b.toNat).byte? = some b := by
  rw [byte?, natBelow?_nat, if_pos b.toNat_lt, Option.map_some, UInt8.ofNat_toNat]

theorem lt_of_word? {j : Json} {n : Nat} (read : j.word? = some n) : n < wordLimit := by
  unfold word? natBelow? at read
  split at read
  · obtain ⟨m, -, read⟩ := Option.bind_eq_some_iff.mp read
    split at read
    · cases read
      assumption
    · cases read
  · cases read

theorem mapM_map_eq_some {α β γ : Type} {write : α → β} {read? : β → Option γ} {value : α → γ}
    {l : List α} (back : ∀ a ∈ l, read? (write a) = some (value a)) :
    (l.map write).mapM read? = some (l.map value) := by
  induction l with
  | nil => rfl
  | cons a rest ih =>
    obtain ⟨first, others⟩ := List.forall_mem_cons.mp back
    rw [List.map_cons, List.mapM_cons, first, ih others]
    rfl

section
variable {α : Type} {read? : Json → Option α}

theorem list?_list {write : α → Json} {l : List α} (back : ∀ a ∈ l, read? (write a) = some a) :
    (list write l).list? read? = some l := by
  calc (l.map write).mapM read?
    _ = some (l.map id) := mapM_map_eq_some back
    _ = some l := by rw [List.map_id]

theorem exists_item_of_mapM {items : List Json} {l : List α} (read : items.mapM read? = some l)
    {a : α} (mem : a ∈ l) : ∃ item ∈ items, read? item = some a := by
  induction items generalizing l with
  | nil =>
    cases read
    cases mem
  | cons item items ih =>
    rw [List.mapM_cons] at read
    obtain ⟨b, first, read⟩ := Option.bind_eq_some_iff.mp read
    obtain ⟨bs, others, read⟩ := Option.bind_eq_some_iff.mp read
    cases read
    rcases List.mem_cons.mp mem with rfl | mem
    · exact ⟨item, List.mem_cons_self, first⟩
    · obtain ⟨item', mem', same⟩ := ih others mem
      exact ⟨item', List.mem_cons_of_mem item mem', same⟩

theorem exists_items_of_list? {j : Json} {l : List α} (read : j.list? read? = some l) :
    ∃ items, j = .array items ∧ items.mapM read? = some l := by
  unfold list? at read
  split at read
  · exact ⟨_, rfl, read⟩
  · cases read

end

theorem variant?_tagged (name : String) (value : Json) :
    (tagged name value).variant? = some (name, some value) := by
  rw [tagged, record, List.map_cons, List.map_nil, variant?, Spelling.text?_ofText, Option.map_some]

theorem variant?_text (name : String) : (text name).variant? = some (name, none) := by
  rw [text, variant?, Spelling.text?_ofText, Option.map_some]

theorem named_record (members : List (String × Json)) (name : String) :
    named (members.map fun m => (Spelling.ofText m.1, m.2)) name =
      members.filterMap fun m => if m.1 = name then some m.2 else none := by
  simp only [named, List.filterMap_map, Function.comp_def, Spelling.text?_ofText,
    Option.some.injEq]

theorem member?_record {members : List (String × Json)}
    (distinct : (members.map Prod.fst).Nodup) {m : String × Json} (mem : m ∈ members) :
    member? (members.map fun m => (Spelling.ofText m.1, m.2)) m.1 = some (some m.2) := by
  have single : members.filterMap (fun n => if n.1 = m.1 then some n.2 else none) = [m.2] := by
    induction members with
    | nil => cases mem
    | cons n rest ih =>
      obtain ⟨new, distinct⟩ := List.nodup_cons.mp distinct
      rcases List.mem_cons.mp mem with rfl | mem
      · have others : rest.filterMap (fun n => if n.1 = m.1 then some n.2 else none) = [] := by
          apply List.filterMap_eq_nil_iff.mpr
          intro n later
          apply if_neg
          intro same
          exact new (same ▸ List.mem_map_of_mem later)
        simp only [List.filterMap_cons, if_true, others]
      · have other : n.1 ≠ m.1 := fun same => new (same ▸ List.mem_map_of_mem mem)
        simp only [List.filterMap_cons, if_neg other]
        exact ih distinct mem
  rw [member?, named_record, single]

/-- The fields of a record are found under their names. -/
theorem fields?_record (members : List (String × Json))
    (distinct : (members.map Prod.fst).Nodup) :
    (record members).fields? (members.map Prod.fst) = some (members.map fun m => some m.2) := by
  have admissible : (members.map fun m => (Spelling.ofText m.1, m.2)).all
      (isAdmissible (members.map Prod.fst)) = true := by
    simp only [List.all_map, List.all_eq_true, Function.comp_apply, isAdmissible,
      Spelling.text?_ofText]
    intro m mem
    rw [List.contains_iff_mem.mpr (List.mem_map_of_mem mem), Bool.true_or]
  rw [record, fields?, someFields?, if_pos admissible]
  · exact mapM_map_eq_some fun m mem => member?_record distinct mem
  · nofun

end TraceDebug.Json

import TraceDebug.Word

/-!
# Tables in key order

A finite map kept in strictly ascending key order, so that two tables with the
same look-ups list the same entries. Keys that compare equal are one key; the
spelling that came first stays.
-/

namespace TraceDebug

variable {κ ν μ : Type}

structure Table (κ ν : Type) [Ord κ] where
  entries : List (κ × ν)
  ascending : entries.Pairwise (fun a b => compare a.1 b.1 = .lt)

namespace Table

def insertEntry [Ord κ] (k : κ) (v : ν) : List (κ × ν) → List (κ × ν)
  | [] => [(k, v)]
  | e :: rest =>
    match compare k e.1 with
    | .lt => (k, v) :: e :: rest
    | .eq => (e.1, v) :: rest
    | .gt => e :: insertEntry k v rest

theorem key_mem_insertEntry [Ord κ] {k : κ} {v : ν} {l : List (κ × ν)} {e : κ × ν}
    (h : e ∈ insertEntry k v l) : e.1 = k ∨ ∃ d ∈ l, d.1 = e.1 := by
  induction l with
  | nil => simp [insertEntry] at h; simp [h]
  | cons d rest ih =>
    unfold insertEntry at h
    split at h
    · rcases List.mem_cons.mp h with h | h
      · simp [h]
      · exact .inr ⟨e, h, rfl⟩
    · rcases List.mem_cons.mp h with h | h
      · exact .inr ⟨d, by simp, by simp [h]⟩
      · exact .inr ⟨e, List.mem_cons_of_mem _ h, rfl⟩
    · rcases List.mem_cons.mp h with h | h
      · exact .inr ⟨d, by simp, by simp [h]⟩
      · rcases ih h with h | ⟨c, hc, h⟩
        · exact .inl h
        · exact .inr ⟨c, List.mem_cons_of_mem _ hc, h⟩

theorem insertEntry_ascending [Ord κ] [Std.TransOrd κ] (k : κ) (v : ν) {l : List (κ × ν)}
    (h : l.Pairwise (fun a b => compare a.1 b.1 = .lt)) :
    (insertEntry k v l).Pairwise (fun a b => compare a.1 b.1 = .lt) := by
  induction l with
  | nil => simp [insertEntry]
  | cons d rest ih =>
    have hd : ∀ e ∈ rest, compare d.1 e.1 = .lt := fun _ he => List.rel_of_pairwise_cons h he
    unfold insertEntry
    split
    · rename_i lt
      refine List.pairwise_cons.mpr ⟨fun e he => ?_, h⟩
      rcases List.mem_cons.mp he with rfl | he
      · exact lt
      · exact Std.TransCmp.lt_trans lt (hd e he)
    · exact List.pairwise_cons.mpr ⟨fun e he => hd e he, List.Pairwise.of_cons h⟩
    · rename_i gt
      refine List.pairwise_cons.mpr ⟨fun e he => ?_, ih (List.Pairwise.of_cons h)⟩
      rcases key_mem_insertEntry he with eq | ⟨c, hc, eq⟩
      · rw [eq]; exact Std.OrientedCmp.lt_of_gt gt
      · rw [← eq]; exact hd c hc

section
variable [Ord κ]

def empty : Table κ ν := ⟨[], .nil⟩

def keys (t : Table κ ν) : List κ := t.entries.map Prod.fst

def get? (t : Table κ ν) (k : κ) : Option ν :=
  (t.entries.find? fun e => compare k e.1 == .eq).map Prod.snd

def contains (t : Table κ ν) (k : κ) : Bool := t.entries.any fun e => compare k e.1 == .eq

def size (t : Table κ ν) : Nat := t.entries.length

def isEmpty (t : Table κ ν) : Bool := t.entries.isEmpty

def erase (t : Table κ ν) (k : κ) : Table κ ν :=
  ⟨t.entries.filter fun e => !(compare k e.1 == .eq), t.ascending.filter _⟩

def mapValues (f : κ → ν → μ) (t : Table κ ν) : Table κ μ :=
  ⟨t.entries.map fun e => (e.1, f e.1 e.2), List.pairwise_map.mpr t.ascending⟩

@[simp] theorem entries_empty : (empty : Table κ ν).entries = [] := rfl

@[simp] theorem keys_mapValues (f : κ → ν → μ) (t : Table κ ν) :
    (t.mapValues f).keys = t.keys := by
  simp [keys, mapValues, Function.comp_def]

theorem ext {s t : Table κ ν} (h : s.entries = t.entries) : s = t := by
  cases s; cases t; cases h; rfl

variable [Std.TransOrd κ]

def insert (t : Table κ ν) (k : κ) (v : ν) : Table κ ν :=
  ⟨insertEntry k v t.entries, insertEntry_ascending k v t.ascending⟩

/-- Entries are taken up in order, so that of two with one key the later counts. -/
def ofList (l : List (κ × ν)) : Table κ ν := l.foldl (fun t e => t.insert e.1 e.2) empty

end

end Table

end TraceDebug

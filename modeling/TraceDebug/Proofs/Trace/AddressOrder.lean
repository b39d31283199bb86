import TraceDebug.Trace.Basic

/-!
# The order of executing addresses

Deployed contracts stand in front, by the bytes of their addresses from the left, then the
transaction's own init code, then the creating steps by their place in the trace.
-/

namespace TraceDebug

theorem compare_bytes_eq_lt_iff {l m : Bytes} : compare l m = .lt ↔ l < m := by
  induction l generalizing m with
  | nil =>
    cases m with
    | nil => simp
    | cons c m => simp
  | cons b l ih =>
    cases m with
    | nil => simp
    | cons c m =>
      have head : compare b c = .lt ↔ b < c := Std.compare_eq_lt
      have same : compare b c = .eq ↔ b = c := Std.compare_eq_iff_eq
      rw [List.compare_eq_compareLex] at ih ⊢
      rw [List.compareLex_cons_cons, Ordering.then_eq_lt, head, same, ih, List.cons_lt_cons_iff]

namespace ExecutingAddress

inductive Before : ExecutingAddress → ExecutingAddress → Prop
  | contracts {a b : Address} (lower : a.bytes < b.bytes) : Before (.contract a) (.contract b)
  | contractFirst {a : Address} {site : CreationSite} : Before (.contract a) (.creation site)
  | transactionFirst {i : Nat} : Before (.creation .transaction) (.creation (.step i))
  | steps {i j : Nat} (earlier : i < j) : Before (.creation (.step i)) (.creation (.step j))

theorem compare_eq_lt_iff_keys {a b : ExecutingAddress} : compare a b = .lt ↔
    a.rank < b.rank ∨
      a.rank = b.rank ∧ (a.code < b.code ∨ a.code = b.code ∧ a.index < b.index) := by
  change (compare a.rank b.rank).then ((compare a.code b.code).then (compare a.index b.index)) =
    .lt ↔ _
  rw [Ordering.then_eq_lt, Ordering.then_eq_lt, Nat.compare_eq_lt, Nat.compare_eq_eq,
    compare_bytes_eq_lt_iff, Std.compare_eq_iff_eq, Nat.compare_eq_lt]

theorem compare_eq_lt_iff {a b : ExecutingAddress} : compare a b = .lt ↔ Before a b := by
  rw [compare_eq_lt_iff_keys]
  constructor
  · intro lt
    rcases a with a | (_ | i) <;> rcases b with b | (_ | j)
    case contract.contract => exact .contracts (by simpa [rank, code, index] using lt)
    case creation.step.creation.step => exact .steps (by simpa [rank, code, index] using lt)
    all_goals first
      | exact .contractFirst
      | exact .transactionFirst
      | exact absurd lt (by simp [rank, code, index])
  · rintro (lower | _ | _ | earlier)
    · exact .inr ⟨rfl, .inl lower⟩
    · exact .inl (by cases ‹CreationSite› <;> simp [rank])
    · exact .inl (by simp [rank])
    · exact .inr ⟨rfl, .inr ⟨rfl, earlier⟩⟩

end ExecutingAddress

end TraceDebug

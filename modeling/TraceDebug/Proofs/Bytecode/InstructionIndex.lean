import TraceDebug.Bytecode.InstructionIndex

/-!
# Instruction numbers and disassembled code

The instruction index numbers the bytes at which the disassembled instructions start, in
their order, and no others. Code that goes on keeps the numbers that it has so far.
-/

namespace TraceDebug

theorem le_pc_of_mem {base : Nat} {code : Bytes} {i : Instruction}
    (mem : i ∈ disassembleFrom base code) : base ≤ i.pc := by
  induction base, code using disassembleFrom.induct with
  | case1 base => simp [disassembleFrom] at mem
  | case2 base opcode rest width ih =>
    rw [disassembleFrom] at mem
    rcases List.mem_cons.mp mem with rfl | mem
    · exact Nat.le_refl base
    · have later := ih mem
      omega

namespace InstructionIndex

/-- Behind an opcode stand its immediate bytes, and then the entries of what is left. -/
theorem getElem?_entriesFrom_succ {number offset : Nat} {opcode : UInt8} {rest : Bytes} :
    (entriesFrom number (opcode :: rest))[offset + 1]? =
      if offset < Opcode.immediateSize opcode then rest[offset]?.map fun _ => none
      else (entriesFrom (number + 1) (rest.drop (Opcode.immediateSize opcode)))[
        offset - Opcode.immediateSize opcode]? := by
  rw [entriesFrom, List.cons_append, List.getElem?_cons_succ]
  generalize Opcode.immediateSize opcode = width
  by_cases short : rest.length ≤ width
  · rw [List.drop_of_length_le short, entriesFrom, List.append_nil, List.take_of_length_le short,
      List.getElem?_map]
    split
    · rfl
    · next behind =>
      rw [List.getElem?_eq_none (by omega)]
      rfl
  · have taken : ((rest.take width).map fun _ => (none : Option Nat)).length = width := by
      rw [List.length_map, List.length_take]
      omega
    split
    · next immediate =>
      rw [List.getElem?_append_left (by omega), List.getElem?_map,
        List.getElem?_take_of_lt immediate]
    · next behind => rw [List.getElem?_append_right (by omega), taken]

theorem getElem?_entriesFrom (base : Nat) {first offset number : Nat} {code : Bytes} :
    (entriesFrom first code)[offset]? = some (some number) ↔
      ∃ k i, number = first + k ∧ (disassembleFrom base code)[k]? = some i ∧
        i.pc = base + offset := by
  induction first, code using entriesFrom.induct generalizing base offset with
  | case1 first => simp [entriesFrom, disassembleFrom]
  | case2 first opcode rest width =>
    rename_i ih
    rw [disassembleFrom]
    cases offset with
    | zero =>
      rw [entriesFrom, List.cons_append, List.getElem?_cons_zero]
      constructor
      · intro found
        cases found
        exact ⟨0, _, rfl, rfl, rfl⟩
      · rintro ⟨k, i, rfl, found, start⟩
        cases k with
        | zero => rfl
        | succ k =>
          have later := le_pc_of_mem (List.mem_of_getElem? found)
          omega
    | succ offset =>
      rw [getElem?_entriesFrom_succ]
      split
      · next immediate =>
        constructor
        · intro found
          obtain ⟨_, -, absent⟩ := Option.map_eq_some_iff.mp found
          cases absent
        · rintro ⟨k, i, rfl, found, start⟩
          cases k with
          | zero =>
            cases found
            simp only at start
            omega
          | succ k =>
            have later := le_pc_of_mem (List.mem_of_getElem? found)
            omega
      · next behind =>
        rw [ih (base + 1 + width)]
        constructor
        · rintro ⟨k, i, rfl, found, start⟩
          exact ⟨k + 1, i, by omega, found, by omega⟩
        · rintro ⟨k, i, rfl, found, start⟩
          cases k with
          | zero =>
            cases found
            simp only at start
            omega
          | succ k => exact ⟨k, i, by omega, found, by omega⟩

theorem instructionAt_eq_some_iff {code : Bytes} {pc number : Nat} :
    (ofCode code).instructionAt pc = some number ↔
      ∃ i, (disassemble code)[number]? = some i ∧ i.pc = pc := by
  have joined : (ofCode code).instructionAt pc = some number ↔
      (entriesFrom 0 code)[pc]? = some (some number) := by
    unfold instructionAt ofCode
    exact Option.join_eq_some_iff
  rw [joined, getElem?_entriesFrom 0]
  constructor
  · rintro ⟨k, i, rfl, found, start⟩
    rw [Nat.zero_add] at start ⊢
    exact ⟨i, found, start⟩
  · rintro ⟨i, found, start⟩
    exact ⟨number, i, by omega, found, by omega⟩

/-- What follows a piece of code moves none of its instructions, not even by completing the
immediate bytes of its last one. -/
theorem getElem?_entriesFrom_append {number offset : Nat} {code rest : Bytes}
    (inside : offset < code.length) :
    (entriesFrom number (code ++ rest))[offset]? = (entriesFrom number code)[offset]? := by
  induction number, code using entriesFrom.induct generalizing offset with
  | case1 number => cases inside
  | case2 number opcode code width =>
    rename_i ih
    rw [List.cons_append]
    cases offset with
    | zero =>
      rw [entriesFrom, entriesFrom, List.cons_append, List.cons_append]
      rfl
    | succ offset =>
      have inside : offset < code.length := Nat.lt_of_succ_lt_succ inside
      rw [getElem?_entriesFrom_succ, getElem?_entriesFrom_succ, List.getElem?_append_left inside]
      split
      · rfl
      · next behind =>
        rw [List.drop_append_of_le_length (by omega)]
        apply ih
        rw [List.length_drop]
        omega

theorem instructionAt_append {code : Bytes} (rest : Bytes) {pc : Nat} (inside : pc < code.length) :
    (ofCode (code ++ rest)).instructionAt pc = (ofCode code).instructionAt pc :=
  congrArg Option.join (getElem?_entriesFrom_append inside)

end InstructionIndex

end TraceDebug

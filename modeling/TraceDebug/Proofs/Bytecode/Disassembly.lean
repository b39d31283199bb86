import TraceDebug.Proofs.Bytecode.InstructionIndex

/-!
# Disassembly partitions the code

The instructions of a piece of code lie one behind another and leave out no byte, and no
other list of instructions does so. A walk by program counter that checks every read finds
these instructions, and a table with a place for each byte that checks every write ends as
their index.
-/

namespace TraceDebug

namespace Checked

/-- The part of a list from `start` on, up to `stop`. -/
def slice (l : List α) (start stop : Nat) : Checked (List α) :=
  if start ≤ stop ∧ stop ≤ l.length then .ok ((l.drop start).take (stop - start))
  else .error (.outOfBounds stop l.length)

def set (l : List α) (i : Nat) (a : α) : Checked (List α) :=
  if i < l.length then .ok (l.set i a) else .error (.outOfBounds i l.length)

end Checked

/-- The instructions that a walk by program counter finds from `pc` on. -/
def walkFrom (code : Bytes) (pc : Nat) : Checked (List Instruction) :=
  if pc < code.length then do
    let opcode ← Checked.get code pc
    let next := pc + 1 + Opcode.immediateSize opcode
    let immediate ← Checked.slice code (pc + 1) (min next code.length)
    return ⟨pc, opcode, immediate⟩ :: (← walkFrom code next)
  else return []
termination_by code.length - pc

/-- The instructions lie one behind another, the first one at `base`, and are the code. Of the
immediate bytes that an opcode asks for, only the last instruction may lack some. -/
structure Partitions (base : Nat) (code : Bytes) (instructions : List Instruction) : Prop where
  joined : instructions.flatMap Instruction.bytes = code
  first : ∀ i, instructions.head? = some i → i.pc = base
  next : ∀ k i j, instructions[k]? = some i → instructions[k + 1]? = some j →
    j.pc = i.pc + i.size
  whole : ∀ k i, instructions[k]? = some i → k + 1 < instructions.length →
    i.immediate.length = i.pushSize
  last : ∀ i, instructions.getLast? = some i → i.immediate.length ≤ i.pushSize

theorem flatMap_bytes_disassembleFrom (base : Nat) (code : Bytes) :
    (disassembleFrom base code).flatMap Instruction.bytes = code := by
  fun_induction disassembleFrom base code with
  | case1 base => rfl
  | case2 base opcode rest width ih =>
    rw [List.flatMap_cons, ih]
    exact congrArg (opcode :: ·) (List.take_append_drop width rest)

theorem disassembleFrom_eq_nil_iff {base : Nat} {code : Bytes} :
    disassembleFrom base code = [] ↔ code = [] := by
  constructor
  · intro nothing
    rw [← flatMap_bytes_disassembleFrom base code, nothing, List.flatMap_nil]
  · rintro rfl
    rw [disassembleFrom]

theorem pc_of_head? {base : Nat} {code : Bytes} {i : Instruction}
    (head : (disassembleFrom base code).head? = some i) : i.pc = base := by
  cases code with
  | nil => simp [disassembleFrom] at head
  | cons opcode rest =>
    rw [disassembleFrom] at head
    cases head
    rfl

theorem pc_next {base k : Nat} {code : Bytes} {i j : Instruction}
    (hi : (disassembleFrom base code)[k]? = some i)
    (hj : (disassembleFrom base code)[k + 1]? = some j) : j.pc = i.pc + i.size := by
  fun_induction disassembleFrom base code generalizing k with
  | case1 base => simp at hi
  | case2 base opcode rest width =>
    rename_i ih
    rw [List.getElem?_cons_succ] at hj
    cases k with
    | zero =>
      cases hi
      have start := pc_of_head? (List.head?_eq_getElem?.trans hj)
      rw [start, Nat.add_assoc]
      rfl
    | succ k => exact ih hi hj

theorem end_le_pc {base k l : Nat} {code : Bytes} {i j : Instruction}
    (hi : (disassembleFrom base code)[k]? = some i)
    (hj : (disassembleFrom base code)[l]? = some j) (earlier : k < l) : i.pc + i.size ≤ j.pc := by
  fun_induction disassembleFrom base code generalizing k l with
  | case1 base => simp at hi
  | case2 base opcode rest width =>
    rename_i ih
    cases l with
    | zero => cases earlier
    | succ l =>
      cases k with
      | zero =>
        cases hi
        have behind := le_pc_of_mem (List.mem_of_getElem? hj)
        rw [Nat.add_assoc] at behind
        exact behind
      | succ k => exact ih hi hj (Nat.lt_of_succ_lt_succ earlier)

theorem length_immediate_le {base : Nat} {code : Bytes} {i : Instruction}
    (mem : i ∈ disassembleFrom base code) : i.immediate.length ≤ i.pushSize := by
  fun_induction disassembleFrom base code with
  | case1 base => cases mem
  | case2 base opcode rest width ih =>
    rcases List.mem_cons.mp mem with rfl | mem
    · exact List.length_take_le width rest
    · exact ih mem

theorem length_immediate {base k : Nat} {code : Bytes} {i : Instruction}
    (hi : (disassembleFrom base code)[k]? = some i)
    (inner : k + 1 < (disassembleFrom base code).length) :
    i.immediate.length = i.pushSize := by
  fun_induction disassembleFrom base code generalizing k with
  | case1 base => simp at hi
  | case2 base opcode rest width =>
    rename_i ih
    have later := Nat.lt_of_succ_lt_succ inner
    cases k with
    | zero =>
      cases hi
      -- Something follows the immediate bytes, so none of them is missing.
      by_cases short : rest.length ≤ width
      · rw [disassembleFrom_eq_nil_iff.mpr (List.drop_of_length_le short)] at later
        cases later
      · exact List.length_take_of_le (Nat.le_of_not_le short)
    | succ k => exact ih hi later

theorem immediate_of_getLast? {base : Nat} {code : Bytes} {i : Instruction}
    (last : (disassembleFrom base code).getLast? = some i) :
    i.immediate = code.drop (i.pc + 1 - base) := by
  fun_induction disassembleFrom base code with
  | case1 base => cases last
  | case2 base opcode rest width ih =>
    rw [List.getLast?_cons] at last
    cases tail : (disassembleFrom (base + 1 + width) (rest.drop width)).getLast? with
    | none =>
      have nothing := disassembleFrom_eq_nil_iff.mp (List.getLast?_eq_none_iff.mp tail)
      rw [tail] at last
      cases last
      rw [Option.getD_none, Nat.add_sub_cancel_left]
      exact List.take_of_length_le (List.drop_eq_nil_iff.mp nothing)
    | some j =>
      rw [tail] at last
      obtain rfl : j = i := Option.some.inj last
      have behind := le_pc_of_mem (List.mem_of_getLast? tail)
      have place : j.pc + 1 - base = (width + (j.pc + 1 - (base + 1 + width))) + 1 := by omega
      rw [place, List.drop_succ_cons, ← List.drop_drop]
      exact ih tail

theorem partitions_disassembleFrom (base : Nat) (code : Bytes) :
    Partitions base code (disassembleFrom base code) where
  joined := flatMap_bytes_disassembleFrom base code
  first _ := pc_of_head?
  next _ _ _ := pc_next
  whole _ _ := length_immediate
  last _ last := length_immediate_le (List.mem_of_getLast? last)

/-- An instruction in front of a piece of code is the first one found, unless immediate bytes
that it lacks would be taken from that code. -/
theorem disassembleFrom_append {i : Instruction} {rest : Bytes}
    (short : i.immediate.length ≤ i.pushSize)
    (whole : rest ≠ [] → i.immediate.length = i.pushSize) :
    disassembleFrom i.pc (i.bytes ++ rest) = i :: disassembleFrom (i.pc + i.size) rest := by
  obtain ⟨pc, opcode, immediate⟩ := i
  have split : (immediate ++ rest).take (Opcode.immediateSize opcode) = immediate ∧
      (immediate ++ rest).drop (Opcode.immediateSize opcode) = rest := by
    by_cases nothing : rest = []
    · rw [nothing, List.append_nil]
      exact ⟨List.take_of_length_le short, List.drop_of_length_le short⟩
    · have width : immediate.length = Opcode.immediateSize opcode := whole nothing
      rw [← width]
      exact ⟨List.take_left, List.drop_left⟩
  rw [Instruction.bytes, List.cons_append, disassembleFrom, split.1, split.2, Nat.add_assoc]
  rfl

theorem Partitions.tail {base : Nat} {code : Bytes} {i j : Instruction}
    {instructions : List Instruction} (h : Partitions base code (i :: j :: instructions)) :
    Partitions (base + i.size) ((j :: instructions).flatMap Instruction.bytes)
      (j :: instructions) where
  joined := rfl
  first := by
    intro first head
    rw [← h.first i rfl]
    exact h.next 0 i first rfl head
  next k := h.next (k + 1)
  whole k i hi inner := h.whole (k + 1) i hi (Nat.succ_lt_succ inner)
  last last hlast := h.last last (List.getLast?_cons_cons.trans hlast)

theorem Partitions.eq_disassembleFrom {base : Nat} {code : Bytes}
    {instructions : List Instruction} (h : Partitions base code instructions) :
    instructions = disassembleFrom base code := by
  induction instructions generalizing base code with
  | nil => rw [← h.joined, List.flatMap_nil, disassembleFrom]
  | cons i rest ih =>
    obtain rfl : i.pc = base := h.first i rfl
    rw [← h.joined, List.flatMap_cons]
    cases rest with
    | nil =>
      rw [List.flatMap_nil, disassembleFrom_append (h.last i rfl) (absurd rfl), disassembleFrom]
    | cons j rest =>
      have whole := h.whole 0 i rfl (by simp)
      rw [disassembleFrom_append (Nat.le_of_eq whole) fun _ => whole, ← ih h.tail]

theorem Checked.slice_eq_ok {l : List α} {start stop : Nat} (ordered : start ≤ stop)
    (inside : stop ≤ l.length) : slice l start stop = .ok ((l.drop start).take (stop - start)) :=
  if_pos ⟨ordered, inside⟩

/-- The walk reads inside the code only, and finds the instructions of what is left of it. -/
theorem walkFrom_eq (code : Bytes) (pc : Nat) :
    walkFrom code pc = .ok (disassembleFrom pc (code.drop pc)) := by
  fun_induction walkFrom code pc with
  | case1 pc inside ih =>
    have width (opcode : UInt8) :
        (code.drop (pc + 1)).take (min (pc + 1 + Opcode.immediateSize opcode) code.length -
          (pc + 1)) = (code.drop (pc + 1)).take (Opcode.immediateSize opcode) := by
      rw [List.take_eq_take_iff, List.length_drop]
      omega
    apply Checked.bind_eq_ok.mpr
    refine ⟨code[pc], Checked.get_eq_ok.mpr (List.getElem?_eq_getElem inside), ?_⟩
    apply Checked.bind_eq_ok.mpr
    refine ⟨_, Checked.slice_eq_ok (by omega) (Nat.min_le_right ..), ?_⟩
    apply Checked.bind_eq_ok.mpr
    refine ⟨_, ih code[pc], ?_⟩
    rw [width, List.drop_eq_getElem_cons inside, disassembleFrom, List.drop_drop]
    rfl
  | case2 pc outside =>
    rw [List.drop_of_length_le (Nat.le_of_not_lt outside), disassembleFrom]
    rfl

namespace InstructionIndex

/-- Give the instructions the next numbers, each at its place in the table. -/
def enter (ix : InstructionIndex) : List Instruction → Checked InstructionIndex
  | [] => .ok ix
  | i :: rest => do
    let starts ← Checked.set ix.starts i.pc (some ix.count)
    enter ⟨starts, ix.count + 1⟩ rest

/-- The index as a table of the code's length, which the instructions of a walk fill. -/
def tabulate (code : Bytes) : Checked InstructionIndex := do
  enter ⟨List.replicate code.length none, 0⟩ (← walkFrom code 0)

theorem length_entriesFrom (number : Nat) (code : Bytes) :
    (entriesFrom number code).length = code.length := by
  fun_induction entriesFrom number code with
  | case1 number => rfl
  | case2 number opcode rest width ih =>
    rw [List.length_append, ih, List.length_cons, List.length_map, Nat.add_right_comm,
      ← List.length_append, List.take_append_drop, List.length_cons]

theorem countP_entriesFrom (base number : Nat) (code : Bytes) :
    (entriesFrom number code).countP Option.isSome = (disassembleFrom base code).length := by
  fun_induction entriesFrom number code generalizing base with
  | case1 number =>
    rw [disassembleFrom]
    rfl
  | case2 number opcode rest width =>
    rename_i ih
    have unnumbered :
        ((rest.take width).map fun _ => (none : Option Nat)).countP Option.isSome = 0 := by
      rw [List.countP_map]
      exact congrFun List.countP_false (rest.take width)
    rw [disassembleFrom, List.cons_append, List.countP_cons_of_pos rfl, List.countP_append,
      unnumbered, ih (base + 1 + width), Nat.zero_add, List.length_cons]

theorem blank_split (width : Nat) (rest : Bytes) :
    List.replicate rest.length (none : Option Nat) =
      (rest.take width).map (fun _ => none) ++ List.replicate (rest.drop width).length none := by
  rw [List.map_const', List.replicate_append_replicate, ← List.length_append,
    List.take_append_drop]

/-- In a table that is filled up to the first of the instructions, all of them find a place. -/
theorem enter_disassembleFrom (filled : List (Option Nat)) (number : Nat) (code : Bytes) :
    enter ⟨filled ++ List.replicate code.length none, number⟩
        (disassembleFrom filled.length code) =
      .ok ⟨filled ++ entriesFrom number code,
        number + (disassembleFrom filled.length code).length⟩ := by
  fun_induction entriesFrom number code generalizing filled with
  | case1 number =>
    rw [disassembleFrom]
    rfl
  | case2 number opcode rest width =>
    rename_i ih
    let further := filled ++ some number :: (rest.take width).map fun _ => none
    have written : Checked.set (filled ++ List.replicate (opcode :: rest).length none)
        filled.length (some number) =
          .ok (further ++ List.replicate (rest.drop width).length none) := by
      rw [Checked.set, if_pos (by simp), List.set_append_right _ _ (Nat.le_refl _), Nat.sub_self,
        List.length_cons, List.replicate_succ, List.set_cons_zero, blank_split width,
        ← List.cons_append, ← List.append_assoc]
    -- Behind a cut push no instruction is left, and its place does not matter.
    have place : disassembleFrom (filled.length + 1 + width) (rest.drop width) =
        disassembleFrom further.length (rest.drop width) := by
      by_cases cut : rest.length ≤ width
      · rw [List.drop_of_length_le cut, disassembleFrom, disassembleFrom]
      · have length : further.length = filled.length + 1 + width := by
          simp only [further, List.length_append, List.length_cons, List.length_map,
            List.length_take]
          omega
        rw [length]
    have joined : further ++ entriesFrom (number + 1) (rest.drop width) =
        filled ++ (some number :: (rest.take width).map (fun _ => none) ++
          entriesFrom (number + 1) (rest.drop width)) := List.append_assoc ..
    rw [disassembleFrom]
    apply Checked.bind_eq_ok.mpr
    refine ⟨_, written, ?_⟩
    rw [place, ih further, joined, List.length_cons, Nat.add_assoc, Nat.add_comm 1]

theorem count_ofCode (code : Bytes) : (ofCode code).count = (disassemble code).length :=
  countP_entriesFrom 0 0 code

theorem tabulate_eq_ofCode (code : Bytes) : tabulate code = .ok (ofCode code) := by
  apply Checked.bind_eq_ok.mpr
  refine ⟨_, walkFrom_eq code 0, ?_⟩
  have entered := enter_disassembleFrom [] 0 code
  rw [List.length_nil, Nat.zero_add, ← countP_entriesFrom 0 0] at entered
  exact entered

/-- What the index says of each program counter of a piece of code. -/
structure Numbers (ix : InstructionIndex) (code : Bytes) (instructions : List Instruction) :
    Prop where
  count : ix.count = instructions.length
  starts : ∀ pc number, ix.instructionAt pc = some number ↔
    number < ix.count ∧ ∃ i, instructions[number]? = some i ∧ i.pc = pc
  immediate : ∀ i ∈ instructions, ∀ pc, i.pc < pc → pc < i.pc + i.size →
    ix.instructionAt pc = none
  past : ∀ pc, code.length ≤ pc → ix.instructionAt pc = none

theorem numbers_ofCode (code : Bytes) : (ofCode code).Numbers code (disassemble code) where
  count := count_ofCode code
  starts := by
    intro pc number
    rw [instructionAt_eq_some_iff, count_ofCode]
    constructor
    · rintro ⟨i, found, start⟩
      exact ⟨(List.getElem?_eq_some_iff.mp found).1, i, found, start⟩
    · exact And.right
  immediate := by
    intro i mem pc behind inside
    apply Option.eq_none_iff_forall_ne_some.mpr
    intro number numbered
    obtain ⟨k, hi⟩ := List.getElem?_of_mem mem
    obtain ⟨j, hj, start⟩ := instructionAt_eq_some_iff.mp numbered
    rcases Nat.lt_trichotomy k number with earlier | rfl | later
    · have := end_le_pc hi hj earlier
      omega
    · cases hi.symm.trans hj
      omega
    · have := end_le_pc hj hi later
      omega
  past := by
    intro pc past
    have outside : (ofCode code).starts.length ≤ pc := by
      rw [ofCode, length_entriesFrom]
      exact past
    rw [instructionAt, List.getElem?_eq_none outside, Option.join_none]

end InstructionIndex

/-- Disassembling partitions a piece of code, in the only way there is, and the index numbers
the program counters at which its instructions start, and no others. Neither the walk over the
code nor the table behind the index is left. -/
theorem disassembly_partitions_code (code : Bytes) :
    walkFrom code 0 = .ok (disassemble code) ∧
      (∀ instructions, Partitions 0 code instructions ↔ instructions = disassemble code) ∧
      (∀ i, (disassemble code).getLast? = some i → i.immediate = code.drop (i.pc + 1)) ∧
      InstructionIndex.tabulate code = .ok (.ofCode code) ∧
      (InstructionIndex.ofCode code).Numbers code (disassemble code) := by
  refine ⟨walkFrom_eq code 0, ?_, ?_, InstructionIndex.tabulate_eq_ofCode code,
    InstructionIndex.numbers_ofCode code⟩
  · intro instructions
    constructor
    · exact Partitions.eq_disassembleFrom
    · rintro rfl
      exact partitions_disassembleFrom 0 code
  · intro i last
    exact immediate_of_getLast? last

/-- The immediate byte of the first push looks like a push; the end of the code cuts the second. -/
theorem cutPush_partitioned :
    Partitions 0 [0x60, 0x61, 0x61, 0x12] [⟨0, 0x60, [0x61]⟩, ⟨2, 0x61, [0x12]⟩] ∧
      (disassemble [0x60, 0x61, 0x61, 0x12]).getLast? = some ⟨2, 0x61, [0x12]⟩ ∧
      ([0x12] : Bytes) = [0x60, 0x61, 0x61, 0x12].drop (2 + 1) := by
  obtain ⟨-, partitions_iff, last, -⟩ := disassembly_partitions_code [0x60, 0x61, 0x61, 0x12]
  have cut : (disassemble [0x60, 0x61, 0x61, 0x12]).getLast? = some ⟨2, 0x61, [0x12]⟩ := by
    decide +kernel
  exact ⟨(partitions_iff _).mpr (by decide +kernel), cut, last _ cut⟩

end TraceDebug

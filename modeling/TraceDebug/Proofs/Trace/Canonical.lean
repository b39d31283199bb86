import TraceDebug.Form.Trace
import TraceDebug.Proofs.Json.Record
import TraceDebug.Proofs.Table.Listing
import TraceDebug.Proofs.Trace.AddressOrder

/-!
# The JSON form of a trace is canonical

A trace whose numbers are words is read back from its JSON form as it was. Its code table is
written in the order of the addresses, so that the form depends on the look-ups alone. A document
may list the codes in any order and more than once; the last code of each address counts.
-/

namespace TraceDebug

open Json

def ExecutingAddress.Words (a : ExecutingAddress) : Prop := a.index < wordLimit

instance (a : ExecutingAddress) : Decidable a.Words :=
  inferInstanceAs (Decidable (a.index < wordLimit))

def Step.Words (s : Step) : Prop := s.pc < wordLimit ∧ s.depth < wordLimit

instance (s : Step) : Decidable s.Words :=
  inferInstanceAs (Decidable (s.pc < wordLimit ∧ s.depth < wordLimit))

/-- All counters of a trace are 64-bit words. -/
structure Trace.Words (t : Trace) : Prop where
  steps : ∀ s ∈ t.steps, s.Words
  root : t.root.Words
  keys : ∀ e ∈ t.bytecodes.entries, e.1.Words

theorem CreationSite.ofJson?_toJson {site : CreationSite}
    (words : (ExecutingAddress.creation site).Words) :
    CreationSite.ofJson? site.toJson = some site := by
  cases site with
  | transaction => rw [toJson, ofJson?, variant?_text]; rfl
  | step i =>
    have index : (nat i).word? = some i := word?_nat words
    rw [toJson, ofJson?, variant?_tagged]
    simp [index]

theorem ExecutingAddress.ofJson?_toJson {a : ExecutingAddress} (words : a.Words) :
    ExecutingAddress.ofJson? a.toJson = some a := by
  cases a with
  | contract a =>
    rw [toJson, ofJson?, variant?_tagged]
    simp
  | creation site =>
    rw [toJson, ofJson?, variant?_tagged]
    simp [CreationSite.ofJson?_toJson words]

theorem CreationSite.words_of_ofJson? {j : Json} {site : CreationSite}
    (read : CreationSite.ofJson? j = some site) : (ExecutingAddress.creation site).Words := by
  cases site with
  | transaction => exact Nat.two_pow_pos 64
  | step i =>
    obtain ⟨v, -, read⟩ := Option.bind_eq_some_iff.mp read
    split at read
    · next data =>
      cases data with
      | none => cases read
      | some data => cases data <;> cases read
    · obtain ⟨n, index, read⟩ := Option.bind_eq_some_iff.mp read
      cases read
      exact lt_of_word? index
    · cases read

theorem ExecutingAddress.words_of_ofJson? {j : Json} {a : ExecutingAddress}
    (read : ExecutingAddress.ofJson? j = some a) : a.Words := by
  cases a with
  | contract a => exact Nat.two_pow_pos 64
  | creation site =>
    obtain ⟨v, -, read⟩ := Option.bind_eq_some_iff.mp read
    split at read
    · obtain ⟨address, -, read⟩ := Option.bind_eq_some_iff.mp read
      cases read
    · obtain ⟨site', read, same⟩ := Option.bind_eq_some_iff.mp read
      cases same
      exact CreationSite.words_of_ofJson? read
    · cases read

theorem optional?_fixedBytes? (target : Option Address) :
    optional? fixedBytes? (some (option fixedBytes target)) = some target := by
  cases target with
  | none => rfl
  | some a =>
    change (fixedBytes a).fixedBytes?.map some = _
    rw [fixedBytes?_fixedBytes, Option.map_some]

theorem Step.ofJson?_toJson {s : Step} (words : s.Words) : Step.ofJson? s.toJson = some s := by
  have fields := fields?_record [("pc", .nat s.pc), ("opcode", .nat s.opcode.toNat),
    ("depth", .nat s.depth), ("call_target", option fixedBytes s.callTarget)] (by simp)
  simp only [List.map_cons, List.map_nil] at fields
  rw [toJson, ofJson?, fields]
  simp [word?_nat words.1, word?_nat words.2, byte?_nat, optional?_fixedBytes?]

theorem Step.words_of_ofJson? {j : Json} {s : Step} (read : Step.ofJson? j = some s) :
    s.Words := by
  obtain ⟨fields, -, read⟩ := Option.bind_eq_some_iff.mp read
  split at read
  · obtain ⟨pc, hpc, read⟩ := Option.bind_eq_some_iff.mp read
    obtain ⟨opcode, -, read⟩ := Option.bind_eq_some_iff.mp read
    obtain ⟨depth, hdepth, read⟩ := Option.bind_eq_some_iff.mp read
    obtain ⟨target, -, read⟩ := Option.bind_eq_some_iff.mp read
    cases read
    obtain ⟨_, -, hpc⟩ := Option.bind_eq_some_iff.mp hpc
    obtain ⟨_, -, hdepth⟩ := Option.bind_eq_some_iff.mp hdepth
    exact ⟨lt_of_word? hpc, lt_of_word? hdepth⟩
  · cases read

theorem pairOfJson?_pairToJson {e : ExecutingAddress × Bytes} (words : e.1.Words) :
    pairOfJson? (pairToJson e) = some e := by
  simp [pairToJson, pairOfJson?, ExecutingAddress.ofJson?_toJson words]

theorem words_of_pairOfJson? {j : Json} {e : ExecutingAddress × Bytes}
    (read : pairOfJson? j = some e) : e.1.Words := by
  unfold pairOfJson? at read
  split at read
  · obtain ⟨a, address, read⟩ := Option.bind_eq_some_iff.mp read
    obtain ⟨code, -, read⟩ := Option.bind_eq_some_iff.mp read
    cases read
    exact ExecutingAddress.words_of_ofJson? address
  · cases read

theorem words_of_list? {α : Type} {P : α → Prop} {read? : Json → Option α}
    (words : ∀ {j a}, read? j = some a → P a) {j : Json} {l : List α}
    (read : j.list? read? = some l) : ∀ a ∈ l, P a := by
  intro a mem
  obtain ⟨items, -, read⟩ := exists_items_of_list? read
  obtain ⟨item, -, read⟩ := exists_item_of_mapM read mem
  exact words read

namespace Trace

/-- A document holds steps, a root and pairs of addresses and codes, in the order in which
they stand there. -/
def Holds (j : Json) (steps : List Step) (root : ExecutingAddress)
    (pairs : List (ExecutingAddress × Bytes)) : Prop :=
  ∃ first second third,
    j.fields? ["steps", "root", "bytecodes"] = some [some first, some second, some third] ∧
    first.list? Step.ofJson? = some steps ∧
    ExecutingAddress.ofJson? second = some root ∧
    third.list? pairOfJson? = some pairs

/-- The document with given steps, root and pairs. -/
def document (steps : List Step) (root : ExecutingAddress)
    (pairs : List (ExecutingAddress × Bytes)) : Json :=
  record [("steps", list Step.toJson steps), ("root", root.toJson),
    ("bytecodes", list pairToJson pairs)]

variable {j : Json} {steps : List Step} {root : ExecutingAddress}
  {pairs : List (ExecutingAddress × Bytes)} {t : Trace}

theorem toJson_eq_document (t : Trace) : t.toJson = document t.steps t.root t.bytecodes.entries :=
  rfl

theorem holds_document (hsteps : ∀ s ∈ steps, s.Words) (hroot : root.Words)
    (keys : ∀ e ∈ pairs, e.1.Words) : Holds (document steps root pairs) steps root pairs := by
  have fields := fields?_record [("steps", list Step.toJson steps),
    ("root", root.toJson), ("bytecodes", list pairToJson pairs)] (by simp)
  exact ⟨_, _, _, fields, list?_list fun s mem => Step.ofJson?_toJson (hsteps s mem),
    ExecutingAddress.ofJson?_toJson hroot,
    list?_list fun e mem => pairOfJson?_pairToJson (keys e mem)⟩

theorem ofJson?_of_holds (holds : Holds j steps root pairs) :
    ofJson? j = some ⟨steps, root, .ofList pairs⟩ := by
  obtain ⟨first, second, third, fields, hsteps, hroot, hpairs⟩ := holds
  rw [ofJson?, fields]
  simp [hsteps, hroot, hpairs]

/-- A document that is read holds the steps and the root of the trace, and pairs that make up
its code table. -/
theorem exists_holds_of_ofJson? (read : ofJson? j = some t) :
    ∃ pairs, Holds j t.steps t.root pairs ∧ t.bytecodes = .ofList pairs := by
  obtain ⟨fields, hfields, read⟩ := Option.bind_eq_some_iff.mp read
  split at read
  · obtain ⟨pairs, hpairs, read⟩ := Option.bind_eq_some_iff.mp read
    obtain ⟨steps, hsteps, read⟩ := Option.bind_eq_some_iff.mp read
    obtain ⟨root, hroot, read⟩ := Option.bind_eq_some_iff.mp read
    cases read
    obtain ⟨first, rfl, hsteps⟩ := Option.bind_eq_some_iff.mp hsteps
    obtain ⟨second, rfl, hroot⟩ := Option.bind_eq_some_iff.mp hroot
    obtain ⟨third, rfl, hpairs⟩ := Option.bind_eq_some_iff.mp hpairs
    exact ⟨pairs, ⟨first, second, third, hfields, hsteps, hroot, hpairs⟩, rfl⟩
  · cases read

theorem words_of_ofJson? (read : ofJson? j = some t) : t.Words := by
  obtain ⟨pairs, ⟨first, second, third, -, hsteps, hroot, hpairs⟩, table⟩ :=
    exists_holds_of_ofJson? read
  refine ⟨words_of_list? Step.words_of_ofJson? hsteps,
    ExecutingAddress.words_of_ofJson? hroot, ?_⟩
  rintro ⟨a, code⟩ mem
  rw [table, Table.mem_ofList_iff] at mem
  obtain ⟨before, after, rfl, -⟩ := mem
  exact words_of_list? words_of_pairOfJson? hpairs (a, code) (by simp)

theorem ofJson?_toJson (words : t.Words) : ofJson? t.toJson = some t := by
  rw [toJson_eq_document, ofJson?_of_holds (holds_document words.steps words.root words.keys),
    Table.ofList_entries]

theorem entries_ascending (t : Trace) :
    t.bytecodes.entries.Pairwise fun d e => d.1.Before e.1 :=
  t.bytecodes.ascending.imp ExecutingAddress.compare_eq_lt_iff.mp

theorem toJson_congr {s t : Trace} (steps : s.steps = t.steps) (root : s.root = t.root)
    (codes : ∀ a, s.bytecode? a = t.bytecode? a) : s.toJson = t.toJson := by
  rw [toJson_eq_document, toJson_eq_document, steps, root, Table.ext_get? codes]

/-- The JSON form of a trace is lossless and canonical. It is read back as the trace; its codes
stand in the order of their addresses, strictly ascending, as sorting puts them in whatever order
they are listed; traces with the same steps, root and codes have one form. And whatever pairs a
document holds, in any order and with repeats, it is read, and written again with the last code of
each address, in order; this form is read as the same trace. -/
theorem json_canonical :
    (∀ t : Trace, t.Words → ofJson? t.toJson = some t) ∧
    (∀ t : Trace, ∃ entries : List (ExecutingAddress × Bytes),
      t.toJson = document t.steps t.root entries ∧
      entries.Pairwise (fun d e => d.1.Before e.1) ∧
      (∀ a code, (a, code) ∈ entries ↔ t.bytecode? a = some code) ∧
      ∀ listing : List (ExecutingAddress × Bytes), listing.Perm entries →
        Table.sortByKey listing = entries) ∧
    (∀ s t : Trace, s.steps = t.steps → s.root = t.root →
      (∀ a, s.bytecode? a = t.bytecode? a) → s.toJson = t.toJson) ∧
    (∀ j t, ofJson? j = some t → ∃ pairs, Holds j t.steps t.root pairs) ∧
    ∀ j steps root pairs, Holds j steps root pairs → ∃ t entries,
      ofJson? j = some t ∧ t.steps = steps ∧ t.root = root ∧
      t.toJson = document steps root entries ∧
      entries.Pairwise (fun d e => d.1.Before e.1) ∧
      (∀ a code, (a, code) ∈ entries ↔ Table.LastOf pairs a code) ∧
      ofJson? t.toJson = some t := by
  refine ⟨fun t => ofJson?_toJson, ?_, fun s t => toJson_congr, ?_, ?_⟩
  · intro t
    exact ⟨t.bytecodes.entries, toJson_eq_document t, t.entries_ascending,
      fun a code => Table.mem_entries_iff, fun listing => Table.sortByKey_of_perm⟩
  · intro j t read
    obtain ⟨pairs, holds, -⟩ := exists_holds_of_ofJson? read
    exact ⟨pairs, holds⟩
  · intro j steps root pairs holds
    have read := ofJson?_of_holds holds
    refine ⟨_, _, read, rfl, rfl, rfl, entries_ascending _, ?_, ofJson?_toJson ?_⟩
    · exact fun a code => Table.mem_ofList_iff
    · exact words_of_ofJson? read

/-- Codes of all kinds of addresses, out of order, and of one address twice. -/
def mixedCodes : List (ExecutingAddress × Bytes) :=
  [(.creation (.step 3), [0x5b]), (.contract (.ofLast 9), [0x60, 0x01]),
    (.creation .transaction, []), (.contract (.ofLast 1), [0xfe]), (.contract (.ofLast 9), [0x00])]

theorem mixedCodes_sorted : ∃ t : Trace,
    ofJson? (document [⟨0, 0x5b, 1, none⟩] (.contract (.ofLast 9)) mixedCodes) = some t ∧
    t.toJson = document [⟨0, 0x5b, 1, none⟩] (.contract (.ofLast 9))
      [(.contract (.ofLast 1), [0xfe]), (.contract (.ofLast 9), [0x00]),
        (.creation .transaction, []), (.creation (.step 3), [0x5b])] ∧
    ofJson? t.toJson = some t := by
  obtain ⟨lossless, -, -, -, reads⟩ := json_canonical
  have holds : Holds (document [⟨0, 0x5b, 1, none⟩] (.contract (.ofLast 9)) mixedCodes)
      [⟨0, 0x5b, 1, none⟩] (.contract (.ofLast 9)) mixedCodes :=
    holds_document (by decide) (by decide) (by decide)
  obtain ⟨t, entries, read, -, -, -, -⟩ := reads _ _ _ _ holds
  refine ⟨t, read, ?_, lossless t (words_of_ofJson? read)⟩
  cases read.symm.trans (ofJson?_of_holds holds)
  exact congrArg (document _ _) (by decide)

end Trace

end TraceDebug

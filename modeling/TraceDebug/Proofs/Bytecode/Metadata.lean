import Mathlib.Data.List.Basic
import Mathlib.Data.Option.Basic
import TraceDebug.Bytecode.Metadata

/-!
# Trailers put on and taken off

A trailer is a payload that starts like a map, and its length in two bytes. Stripping takes off
a trailer and nothing else, so that code with a trailer has one body only, and two pieces of
code are the same up to metadata if their bodies are.
-/

namespace TraceDebug.Metadata

/-- What a trailer can hold. A payload is not empty, since it has a first byte. -/
structure IsPayload (payload : Bytes) : Prop where
  head : ∃ first, payload.head? = some first ∧ 0xa1 ≤ first ∧ first ≤ 0xb7
  length_le : payload.length ≤ 65535

def withTrailer (body payload : Bytes) : Bytes :=
  body ++ payload ++ lengthBytes payload.length

def HasTrailer (code : Bytes) : Prop :=
  ∃ body payload, IsPayload payload ∧ code = withTrailer body payload

theorem IsPayload.length_pos {payload : Bytes} (h : IsPayload payload) : 0 < payload.length := by
  obtain ⟨first, head, -⟩ := h.head
  cases payload with
  | nil => cases head
  | cons first rest => exact Nat.succ_pos rest.length

theorem isMapHead_iff {b : UInt8} : isMapHead b = true ↔ 0xa1 ≤ b ∧ b ≤ 0xb7 := by
  rw [isMapHead, Bool.and_eq_true, decide_eq_true_iff, decide_eq_true_iff]

theorem lengthBytes_toNat (high low : UInt8) :
    lengthBytes (256 * high.toNat + low.toNat) = [high, low] := by
  have small := low.toNat_lt
  have quotient : (256 * high.toNat + low.toNat) / 256 = high.toNat := by omega
  have remainder : (256 * high.toNat + low.toNat) % 256 = low.toNat := by omega
  rw [lengthBytes, quotient, remainder, UInt8.ofNat_toNat, UInt8.ofNat_toNat]

theorem exists_lengthBytes {n : Nat} (h : n ≤ 65535) :
    ∃ high low : UInt8, lengthBytes n = [high, low] ∧ 256 * high.toNat + low.toNat = n := by
  refine ⟨_, _, rfl, ?_⟩
  rw [UInt8.toNat_ofNat_of_lt' (show n / 256 < 256 by omega),
    UInt8.toNat_ofNat_of_lt' (show n % 256 < 256 by omega)]
  exact Nat.div_add_mod n 256

theorem start?_eq_none_of_short {code : Bytes} (short : code.length < 2) :
    start? code = none := by
  have refused : ¬ 2 ≤ code.length := Nat.not_le.mpr short
  simp [start?, guard, refused]

/-- In front of a length the trailer starts that many bytes earlier, if a map can start there. -/
theorem start?_append_eq_some_iff {front : Bytes} {high low : UInt8} {start : Nat} :
    start? (front ++ [high, low]) = some start ↔
      start + (256 * high.toNat + low.toNat) = front.length ∧
        ∃ first, front[start]? = some first ∧ isMapHead first = true := by
  have split : (front ++ [high, low]).length - 2 = front.length := by simp
  have long : 2 ≤ (front ++ [high, low]).length := by simp
  have highAt : (front ++ [high, low])[front.length]? = some high := by simp
  have lowAt : (front ++ [high, low])[front.length + 1]? = some low := by simp
  unfold start?
  simp only [split, long, highAt, lowAt, Option.bind_eq_bind, Option.bind_eq_some_iff,
    Option.guard_eq_some', Option.pure_def, Option.some.injEq, exists_eq_left', exists_const,
    true_and]
  generalize 256 * high.toNat + low.toNat = length
  constructor
  · rintro ⟨⟨positive, inside⟩, first, found, head, rfl⟩
    rw [List.getElem?_append_left (by omega)] at found
    exact ⟨by omega, first, found, head⟩
  · rintro ⟨whole, first, found, head⟩
    obtain ⟨before, -⟩ := List.getElem?_eq_some_iff.mp found
    obtain rfl : start = front.length - length := by omega
    rw [List.getElem?_append_left before]
    exact ⟨by omega, first, found, head, rfl⟩

theorem start?_withTrailer (body : Bytes) {payload : Bytes} (h : IsPayload payload) :
    start? (withTrailer body payload) = some body.length := by
  obtain ⟨high, low, bytes, length⟩ := exists_lengthBytes h.length_le
  obtain ⟨first, head, valid⟩ := h.head
  rw [withTrailer, bytes]
  apply start?_append_eq_some_iff.mpr
  refine ⟨by rw [length, List.length_append], first, ?_, isMapHead_iff.mpr valid⟩
  rw [List.getElem?_append_right (Nat.le_refl _), Nat.sub_self, ← List.head?_eq_getElem?]
  exact head

theorem exists_trailer_of_start? {code : Bytes} {start : Nat} (h : start? code = some start) :
    ∃ payload, IsPayload payload ∧ code = withTrailer (code.take start) payload := by
  by_cases short : code.length < 2
  · rw [start?_eq_none_of_short short] at h
    cases h
  · have lastTwo : (code.drop (code.length - 2)).length = 2 := by
      rw [List.length_drop]
      omega
    obtain ⟨high, low, tail⟩ := List.length_eq_two.mp lastTwo
    obtain ⟨front, rfl⟩ : ∃ front, code = front ++ [high, low] :=
      ⟨_, by rw [← tail, List.take_append_drop]⟩
    obtain ⟨whole, first, found, head⟩ := start?_append_eq_some_iff.mp h
    obtain ⟨inside, -⟩ := List.getElem?_eq_some_iff.mp found
    have length : (front.drop start).length = 256 * high.toNat + low.toNat := by
      rw [List.length_drop]
      omega
    refine ⟨front.drop start, ⟨⟨first, ?_, isMapHead_iff.mp head⟩, ?_⟩, ?_⟩
    · rw [List.head?_drop, found]
    · have := high.toNat_lt
      have := low.toNat_lt
      omega
    · rw [withTrailer, length, lengthBytes_toNat, List.take_append_of_le_length (by omega),
        List.take_append_drop]

theorem strip_withTrailer (body : Bytes) {payload : Bytes} (h : IsPayload payload) :
    strip (withTrailer body payload) = body := by
  rw [strip, start?_withTrailer body h, withTrailer, List.append_assoc]
  exact List.take_left

theorem strip_cases (code : Bytes) :
    (strip code = code ∧ ¬ HasTrailer code) ∨
      ∃ payload, IsPayload payload ∧ code = withTrailer (strip code) payload := by
  cases started : start? code with
  | none =>
    refine .inl ⟨by rw [strip, started], ?_⟩
    rintro ⟨body, payload, valid, rfl⟩
    rw [start?_withTrailer body valid] at started
    cases started
  | some start =>
    have stripped : strip code = code.take start := by rw [strip, started]
    rw [stripped]
    exact .inr (exists_trailer_of_start? started)

theorem length_lt_withTrailer (body : Bytes) {payload : Bytes} (h : IsPayload payload) :
    body.length < (withTrailer body payload).length := by
  have := h.length_pos
  rw [withTrailer, List.length_append, List.length_append]
  omega

theorem strip_eq_self_iff {code : Bytes} : strip code = code ↔ ¬ HasTrailer code := by
  rcases strip_cases code with ⟨same, bare⟩ | ⟨payload, valid, split⟩
  · exact iff_of_true same bare
  · have shorter := length_lt_withTrailer (strip code) valid
    rw [← split] at shorter
    apply iff_of_false
    · intro same
      rw [same] at shorter
      exact Nat.lt_irrefl _ shorter
    · exact fun bare => bare ⟨_, payload, valid, split⟩

theorem sameRuntimeCode_iff {deployed compiled : Bytes} :
    sameRuntimeCode deployed compiled = true ↔
      compiled ≠ [] ∧ strip deployed = strip compiled := by
  rw [sameRuntimeCode, Bool.and_eq_true, beq_iff_eq, Bool.not_eq_true', List.isEmpty_eq_false_iff]

/-- Stripping undoes putting on a trailer and does nothing else, so that code is the same up to
metadata exactly if it is the same without trailers. -/
theorem strip_undoes_trailer :
    (∀ body payload, IsPayload payload → strip (withTrailer body payload) = body) ∧
      (∀ code, strip code = code ∨
        ∃ payload, IsPayload payload ∧ code = withTrailer (strip code) payload) ∧
      (∀ code, strip code = code ↔ ¬ HasTrailer code) ∧
      (∀ body payload other, IsPayload payload → IsPayload other →
        sameRuntimeCode (withTrailer body payload) (withTrailer body other) = true) ∧
      ∀ deployed compiled, deployed ≠ [] → compiled ≠ [] → ¬ HasTrailer deployed →
        ¬ HasTrailer compiled → (sameRuntimeCode deployed compiled = true ↔ deployed = compiled) := by
  refine ⟨fun body _ => strip_withTrailer body, ?_, fun _ => strip_eq_self_iff, ?_, ?_⟩
  · intro code
    exact (strip_cases code).imp_left And.left
  · intro body payload other valid valid'
    apply sameRuntimeCode_iff.mpr
    rw [strip_withTrailer body valid, strip_withTrailer body valid']
    refine ⟨List.ne_nil_of_length_pos ?_, rfl⟩
    exact Nat.zero_lt_of_lt (length_lt_withTrailer body valid')
  · intro deployed compiled _ nonempty bare bare'
    rw [sameRuntimeCode_iff, strip_eq_self_iff.mpr bare, strip_eq_self_iff.mpr bare']
    exact and_iff_right nonempty

/-- Of two trailers one behind the other, the last one is taken off; and a declared length that
reaches one byte too far makes no trailer. -/
theorem stackedTrailers_stripped :
    IsPayload [0xa1, 1, 2] ∧ IsPayload [0xb7] ∧
      strip (withTrailer (withTrailer [0x5b] [0xb7]) [0xa1, 1, 2]) = withTrailer [0x5b] [0xb7] ∧
      sameRuntimeCode (withTrailer [] [0xa1, 1, 2]) (withTrailer [] [0xb7]) = true ∧
      ¬ HasTrailer [0xa1, 0xa1, 0, 3] ∧ ¬ HasTrailer [0xa1, 0xb7, 0, 3] ∧
      sameRuntimeCode [0xa1, 0xa1, 0, 3] [0xa1, 0xb7, 0, 3] = false := by
  have payload : IsPayload [0xa1, 1, 2] := ⟨⟨0xa1, by decide⟩, by decide⟩
  have other : IsPayload [0xb7] := ⟨⟨0xb7, by decide⟩, by decide⟩
  obtain ⟨undone, -, bare_iff, accepted, equal_iff⟩ := strip_undoes_trailer
  have bare : ¬ HasTrailer [0xa1, 0xa1, 0, 3] := (bare_iff _).mp (by decide)
  have bare' : ¬ HasTrailer [0xa1, 0xb7, 0, 3] := (bare_iff _).mp (by decide)
  refine ⟨payload, other, undone _ _ payload, accepted _ _ _ payload other, bare, bare', ?_⟩
  apply Bool.eq_false_iff.mpr
  intro same
  exact absurd ((equal_iff _ _ (by decide) (by decide) bare bare').mp same) (by decide)

end TraceDebug.Metadata

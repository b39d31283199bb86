import TraceDebug.Bytes
import TraceDebug.Json.Spelling

/-!
# Quoted JSON text

The text behind an opening quotation mark: what is quoted, and what follows the
closing mark. An escape is a backslash with a letter or mark, or with four
hexadecimal digits behind a `u`.
-/

namespace TraceDebug.Json

def simpleEscape? : Char → Option Char
  | '"' => some '"'
  | '\\' => some '\\'
  | '/' => some '/'
  | 'b' => some '\x08'
  | 'f' => some '\x0c'
  | 'n' => some '\n'
  | 'r' => some '\r'
  | 't' => some '\t'
  | _ => none

def halfWord? (a b c d : Char) : Option Nat := do
  let a ← Hex.value? a
  let b ← Hex.value? b
  let c ← Hex.value? c
  let d ← Hex.value? d
  return ((a * 16 + b) * 16 + c) * 16 + d

/-- The units of a string whose opening mark was read, and what follows it. -/
def scanString : List Char → Option (List StringUnit × List Char)
  | [] => none
  | '"' :: rest => some ([], rest)
  | '\\' :: 'u' :: a :: b :: c :: d :: rest => do
    let n ← halfWord? a b c d
    let (units, after) ← scanString rest
    return (.half n :: units, after)
  | '\\' :: e :: rest => do
    let c ← simpleEscape? e
    let (units, after) ← scanString rest
    return (.char c :: units, after)
  | c :: rest =>
    if 32 ≤ c.toNat ∧ c ≠ '\\' then
      (scanString rest).map fun (units, after) => (.char c :: units, after)
    else none

theorem length_of_scanString {text : List Char} {units : List StringUnit} {after : List Char}
    (h : scanString text = some (units, after)) : after.length < text.length := by
  fun_induction scanString text generalizing units after with
  | case1 => cases h
  | case2 rest => simp only [Option.some.injEq, Prod.mk.injEq] at h; simp [← h.2]
  | case3 a b c d rest ih =>
    simp only [Option.bind_eq_bind, Option.bind_eq_some_iff] at h
    obtain ⟨_, _, ⟨units', after'⟩, scanned, h⟩ := h
    have := ih scanned
    simp only [Option.pure_def, Option.some.injEq, Prod.mk.injEq] at h
    simp only [← h.2, List.length_cons]
    omega
  | case4 e rest _ ih =>
    simp only [Option.bind_eq_bind, Option.bind_eq_some_iff] at h
    obtain ⟨_, _, ⟨units', after'⟩, scanned, h⟩ := h
    have := ih scanned
    simp only [Option.pure_def, Option.some.injEq, Prod.mk.injEq] at h
    simp only [← h.2, List.length_cons]
    omega
  | case5 c rest _ _ _ _ ih =>
    simp only [Option.map_eq_some_iff] at h
    obtain ⟨⟨units', after'⟩, scanned, h⟩ := h
    have := ih scanned
    simp only [Prod.mk.injEq] at h
    simp only [← h.2, List.length_cons]
    omega
  | case6 => cases h

end TraceDebug.Json

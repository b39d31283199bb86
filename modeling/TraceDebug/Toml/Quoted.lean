import TraceDebug.Bytes

/-!
# Quoted TOML text

Four kinds of quoted text: between quotation marks, with escapes, or between
apostrophes, without; and each of them over several lines between tripled marks.
The functions take the text behind the opening mark, and give what is quoted and
what follows the closing mark.
-/

namespace TraceDebug.Toml

/-- Whether a character may stand in quoted text and comments as it is. -/
def isPlain (c : Char) : Bool := c == '\t' || (32 ≤ c.toNat && c.toNat ≠ 127)

def codePoint? (digits : List Char) : Option Char := do
  let halves ← digits.mapM Hex.value?
  let n := halves.foldl (fun n d => 16 * n + d) 0
  if n.isValidChar then some (Char.ofNat n) else none

def escape? : List Char → Option (Char × List Char)
  | '"' :: rest => some ('"', rest)
  | '\\' :: rest => some ('\\', rest)
  | 'b' :: rest => some ('\x08', rest)
  | 'e' :: rest => some ('\x1b', rest)
  | 'f' :: rest => some ('\x0c', rest)
  | 'n' :: rest => some ('\n', rest)
  | 'r' :: rest => some ('\r', rest)
  | 't' :: rest => some ('\t', rest)
  | 'x' :: a :: b :: rest => (codePoint? [a, b]).map (·, rest)
  | 'u' :: a :: b :: c :: d :: rest => (codePoint? [a, b, c, d]).map (·, rest)
  | 'U' :: a :: b :: c :: d :: e :: f :: g :: h :: rest =>
    (codePoint? [a, b, c, d, e, f, g, h]).map (·, rest)
  | _ => none

theorem length_of_escape? {text after : List Char} {c : Char}
    (h : escape? text = some (c, after)) : after.length < text.length := by
  unfold escape? at h
  split at h <;>
    simp only [Option.some.injEq, Prod.mk.injEq, Option.map_eq_some_iff, reduceCtorEq] at h
  all_goals first
    | (obtain ⟨_, rfl⟩ := h; simp)
    | (obtain ⟨_, _, _, rfl⟩ := h; simp; omega)

def scanLiteral : List Char → Option (List Char × List Char)
  | [] => none
  | '\x27' :: rest => some ([], rest)
  | c :: rest => do
    guard (isPlain c)
    let (text, after) ← scanLiteral rest
    return (c :: text, after)

def scanBasic (text : List Char) : Option (List Char × List Char) :=
  match text with
  | [] => none
  | '"' :: rest => some ([], rest)
  | '\\' :: rest =>
    match _found : escape? rest with
    | none => none
    | some (c, rest') => (scanBasic rest').map fun (text, after) => (c :: text, after)
  | c :: rest =>
    if isPlain c then (scanBasic rest).map fun (text, after) => (c :: text, after) else none
termination_by text.length
decreasing_by
  · have := length_of_escape? _found
    simp only [List.length_cons]
    omega
  · simp

/-- The marks that close quoted text of several lines may follow up to two that
belong to it. -/
def closing (mark : Char) : List Char → List Char × List Char
  | a :: b :: rest =>
    if a = mark then if b = mark then ([a, b], rest) else ([a], b :: rest) else ([], a :: b :: rest)
  | a :: rest => if a = mark then ([a], rest) else ([], a :: rest)
  | [] => ([], [])

def scanLongLiteral : List Char → Option (List Char × List Char)
  | [] => none
  | '\x27' :: '\x27' :: '\x27' :: rest => some (closing '\x27' rest)
  | '\r' :: '\n' :: rest => do
    let (text, after) ← scanLongLiteral rest
    return ('\n' :: text, after)
  | c :: rest => do
    guard (isPlain c ∨ c = '\n')
    let (text, after) ← scanLongLiteral rest
    return (c :: text, after)

/-- What follows blank space and line breaks. -/
def skipGap : List Char → List Char
  | ' ' :: rest => skipGap rest
  | '\t' :: rest => skipGap rest
  | '\n' :: rest => skipGap rest
  | '\r' :: '\n' :: rest => skipGap rest
  | text => text

/-- What follows a line break that is escaped: blank space may come before it,
and all blank space and line breaks after it are passed over. -/
def pastEscapedBreak? : List Char → Option (List Char)
  | ' ' :: rest => pastEscapedBreak? rest
  | '\t' :: rest => pastEscapedBreak? rest
  | '\n' :: rest => some (skipGap rest)
  | '\r' :: '\n' :: rest => some (skipGap rest)
  | _ => none

theorem length_skipGap_le (text : List Char) : (skipGap text).length ≤ text.length := by
  fun_induction skipGap text <;> simp only [List.length_cons, Nat.le_refl] <;> omega

theorem length_of_pastEscapedBreak? {text after : List Char}
    (h : pastEscapedBreak? text = some after) : after.length ≤ text.length := by
  fun_induction pastEscapedBreak? text with
  | case1 rest ih => have := ih h; simp only [List.length_cons]; omega
  | case2 rest ih => have := ih h; simp only [List.length_cons]; omega
  | case3 rest =>
    have := length_skipGap_le rest
    simp only [Option.some.injEq] at h
    simp only [← h, List.length_cons]
    omega
  | case4 rest =>
    have := length_skipGap_le rest
    simp only [Option.some.injEq] at h
    simp only [← h, List.length_cons]
    omega
  | case5 => cases h

def scanLongBasic (text : List Char) : Option (List Char × List Char) :=
  match text with
  | [] => none
  | '"' :: '"' :: '"' :: rest => some (closing '"' rest)
  | '\\' :: rest =>
    match _found : pastEscapedBreak? rest with
    | some rest' => scanLongBasic rest'
    | none =>
      match _found : escape? rest with
      | none => none
      | some (c, rest') => (scanLongBasic rest').map fun (text, after) => (c :: text, after)
  | '\r' :: '\n' :: rest => (scanLongBasic rest).map fun (text, after) => ('\n' :: text, after)
  | c :: rest =>
    if isPlain c || c == '\n' then (scanLongBasic rest).map fun (text, after) => (c :: text, after)
    else none
termination_by text.length
decreasing_by
  · have := length_of_pastEscapedBreak? _found
    simp only [List.length_cons]
    omega
  · have := length_of_escape? _found
    simp only [List.length_cons]
    omega
  · simp only [List.length_cons]
    omega
  · simp

/-- A line break right behind the opening mark is not part of the text. -/
def skipBreak : List Char → List Char
  | '\n' :: rest => rest
  | '\r' :: '\n' :: rest => rest
  | text => text

end TraceDebug.Toml

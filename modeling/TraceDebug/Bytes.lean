import TraceDebug.Word

/-!
# Byte strings

Byte strings, byte strings of a fixed length, and their hexadecimal text. Text
is written in lower case behind `0x`; reading accepts either case and does not
insist on the marker.
-/

namespace TraceDebug

abbrev Bytes := List UInt8

namespace Hex

def digit (n : Nat) : Char :=
  Char.ofNat (if n < 10 then n + 48 else n + 87)

def value? (c : Char) : Option Nat :=
  if '0' ≤ c ∧ c ≤ '9' then some (c.toNat - 48)
  else if 'a' ≤ c ∧ c ≤ 'f' then some (c.toNat - 87)
  else if 'A' ≤ c ∧ c ≤ 'F' then some (c.toNat - 55)
  else none

def ofByte (b : UInt8) : List Char := [digit (b.toNat / 16), digit (b.toNat % 16)]

def digits (bytes : Bytes) : List Char := bytes.flatMap ofByte

def bytes? : List Char → Option Bytes
  | [] => some []
  | [_] => none
  | high :: low :: rest => do
    let h ← value? high
    let l ← value? low
    let tail ← bytes? rest
    return UInt8.ofNat (16 * h + l) :: tail

theorem value?_digit {n : Nat} (h : n < 16) : value? (digit n) = some n := by
  have all : ∀ m : Fin 16, value? (digit m) = some m.val := by decide
  exact all ⟨n, h⟩

theorem bytes?_digits (bytes : Bytes) : bytes? (digits bytes) = some bytes := by
  induction bytes with
  | nil => rfl
  | cons b rest ih =>
    have high : b.toNat / 16 < 16 := by have := b.toNat_lt; omega
    have low : b.toNat % 16 < 16 := Nat.mod_lt _ (by decide)
    have whole : 16 * (b.toNat / 16) + b.toNat % 16 = b.toNat := Nat.div_add_mod _ _
    simp only [digits, List.flatMap_cons, ofByte, List.cons_append, List.nil_append] at ih ⊢
    simp only [bytes?, value?_digit high, value?_digit low, ih, whole, UInt8.ofNat_toNat,
      Option.bind_eq_bind, Option.bind_some, Option.pure_def]

/-- The digits behind an optional `0x` or `0X`. -/
def stripMarker : List Char → List Char
  | '0' :: 'x' :: rest => rest
  | '0' :: 'X' :: rest => rest
  | text => text

end Hex

def Bytes.toHex (bytes : Bytes) : String := String.ofList ('0' :: 'x' :: Hex.digits bytes)

def Bytes.ofHex? (text : String) : Option Bytes := Hex.bytes? (Hex.stripMarker text.toList)

@[simp] theorem Bytes.ofHex?_toHex (bytes : Bytes) : Bytes.ofHex? bytes.toHex = some bytes := by
  simp [Bytes.ofHex?, Bytes.toHex, Hex.stripMarker, Hex.bytes?_digits]

structure FixedBytes (n : Nat) where
  bytes : Bytes
  length_eq : bytes.length = n
  deriving DecidableEq

namespace FixedBytes

variable {n : Nat}

theorem ext {a b : FixedBytes n} (h : a.bytes = b.bytes) : a = b := by
  cases a; cases b; cases h; rfl

instance : Ord (FixedBytes n) := ⟨compareOn bytes⟩

instance : Std.TransOrd (FixedBytes n) := inferInstanceAs (Std.TransCmp (compareOn bytes))

instance : Std.LawfulEqOrd (FixedBytes n) where
  eq_of_compare {a b} h := ext (Std.LawfulEqOrd.eq_of_compare (a := a.bytes) (b := b.bytes) h)

def ofBytes? (bytes : Bytes) : Option (FixedBytes n) :=
  if h : bytes.length = n then some ⟨bytes, h⟩ else none

@[simp] theorem ofBytes?_bytes (a : FixedBytes n) : ofBytes? a.bytes = some a := by
  simp [ofBytes?, a.length_eq]

def toHex (a : FixedBytes n) : String := Bytes.toHex a.bytes

def ofHex? (text : String) : Option (FixedBytes n) := (Bytes.ofHex? text).bind ofBytes?

@[simp] theorem ofHex?_toHex (a : FixedBytes n) : ofHex? a.toHex = some a := by
  simp [ofHex?, toHex]

end FixedBytes

abbrev Hash := FixedBytes 32

/-- The account whose code or balance is meant. -/
abbrev Address := FixedBytes 20

end TraceDebug

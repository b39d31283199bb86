import TraceDebug.Bytes

/-!
# The metadata trailer

The compiler may append a CBOR map and, in two bytes, its length. Two pieces of
code that differ in that trailer only come from one contract.
-/

namespace TraceDebug.Metadata

/-- The first byte of a CBOR map with one to twenty-three entries. -/
def isMapHead (b : UInt8) : Bool := 0xa1 ≤ b && b ≤ 0xb7

/-- A length in two bytes, the more significant one first. -/
def lengthBytes (n : Nat) : Bytes := [UInt8.ofNat (n / 256), UInt8.ofNat (n % 256)]

/-- Where the trailer starts: the last two bytes give the length of the map in
front of them, and the map has a plausible first byte. -/
def start? (code : Bytes) : Option Nat := do
  guard (2 ≤ code.length)
  let split := code.length - 2
  let high ← code[split]?
  let low ← code[split + 1]?
  let length := 256 * high.toNat + low.toNat
  guard (0 < length ∧ length ≤ split)
  let head ← code[split - length]?
  guard (isMapHead head)
  return split - length

/-- The code without its trailer; code without a trailer as it is. -/
def strip (code : Bytes) : Bytes :=
  match start? code with
  | some start => code.take start
  | none => code

/-- Whether deployed code was produced by the compiled contract, up to metadata. -/
def sameRuntimeCode (deployed compiled : Bytes) : Bool :=
  !compiled.isEmpty && strip deployed == strip compiled

end TraceDebug.Metadata

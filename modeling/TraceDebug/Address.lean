import TraceDebug.Keccak

/-!
# Address text

An address is shown in mixed case: a letter is capital when the digit of the
Keccak hash of the lower-case text at its place is eight or more.
-/

namespace TraceDebug.Address

/-- The half bytes of a byte string, high half first. -/
def halves (bytes : Bytes) : List Nat := bytes.flatMap fun b => [b.toNat / 16, b.toNat % 16]

def checksum (a : Address) : String :=
  let digits := Hex.digits a.bytes
  let marks := halves (Keccak.hash (digits.map fun c => UInt8.ofNat c.toNat))
  String.ofList ('0' :: 'x' ::
    List.zipWith (fun c mark => if 8 ≤ mark then c.toUpper else c) digits marks)

/-- The address whose last byte is given and whose other bytes are zero. -/
def ofLast (b : UInt8) : Address := ⟨List.replicate 19 0 ++ [b], by simp⟩

end TraceDebug.Address

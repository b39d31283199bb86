import TraceDebug.Bytes

/-!
# Keccak-256

The sponge with rate 136 bytes and the plain padding, in which a single set bit
opens and a single set bit closes the last block. A state is 25 lanes; lane
`(x, y)` stands at `x + 5 * y`.
-/

namespace TraceDebug.Keccak

abbrev Lanes := Vector UInt64 25

def rotate (w : UInt64) (k : Nat) : UInt64 :=
  (w <<< UInt64.ofNat k) ||| (w >>> UInt64.ofNat (64 - k))

def lane (s : Lanes) (x y : Nat) : UInt64 := s.get ⟨x % 5 + 5 * (y % 5), by omega⟩

def ofLanes (f : Nat → Nat → UInt64) : Lanes := Vector.ofFn fun i => f (i.val % 5) (i.val / 5)

def rotations : List Nat :=
  [0, 1, 62, 28, 27, 36, 44, 6, 55, 20, 3, 10, 43, 25, 39, 41, 45, 15, 21, 8, 18, 2, 61, 56, 14]

def roundConstants : List UInt64 :=
  [0x0000000000000001, 0x0000000000008082, 0x800000000000808a, 0x8000000080008000,
   0x000000000000808b, 0x0000000080000001, 0x8000000080008081, 0x8000000000008009,
   0x000000000000008a, 0x0000000000000088, 0x0000000080008009, 0x000000008000000a,
   0x000000008000808b, 0x800000000000008b, 0x8000000000008089, 0x8000000000008003,
   0x8000000000008002, 0x8000000000000080, 0x000000000000800a, 0x800000008000000a,
   0x8000000080008081, 0x8000000000008080, 0x0000000080000001, 0x8000000080008008]

def column (s : Lanes) (x : Nat) : UInt64 :=
  lane s x 0 ^^^ lane s x 1 ^^^ lane s x 2 ^^^ lane s x 3 ^^^ lane s x 4

/-- Every lane takes up the parities of the two neighbouring columns. -/
def theta (s : Lanes) : Lanes :=
  ofLanes fun x y => lane s x y ^^^ column s (x + 4) ^^^ rotate (column s (x + 1)) 1

/-- Lanes are rotated by fixed amounts and change places. -/
def rhoPi (s : Lanes) : Lanes :=
  ofLanes fun x y =>
    let source := (x + 3 * y) % 5
    rotate (lane s source x) (rotations.getD (source + 5 * x) 0)

def chi (s : Lanes) : Lanes :=
  ofLanes fun x y => lane s x y ^^^ (~~~lane s (x + 1) y &&& lane s (x + 2) y)

def iota (c : UInt64) (s : Lanes) : Lanes := s.set 0 (s[0] ^^^ c)

def permute (s : Lanes) : Lanes :=
  roundConstants.foldl (fun s c => iota c (chi (rhoPi (theta s)))) s

/-- A lane is written least significant byte first. -/
def laneOfBytes (bytes : Bytes) : UInt64 :=
  bytes.foldr (fun b w => (w <<< 8) ||| b.toUInt64) 0

def bytesOfLane (w : UInt64) : Bytes :=
  (List.range 8).map fun i => (w >>> UInt64.ofNat (8 * i)).toUInt8

def rate : Nat := 136

/-- The last block: the rest of the message, padded to the rate. -/
def pad (rest : Bytes) : Bytes :=
  if rest.length + 1 = rate then rest ++ [0x81]
  else rest ++ 0x01 :: List.replicate (rate - rest.length - 2) 0 ++ [0x80]

def absorbBlock (s : Lanes) (block : Bytes) : Lanes :=
  permute (Vector.ofFn fun i => s[i] ^^^ laneOfBytes ((block.drop (8 * i.val)).take 8))

def absorb (s : Lanes) (message : Bytes) : Lanes :=
  if _h : rate ≤ message.length then
    absorb (absorbBlock s (message.take rate)) (message.drop rate)
  else absorbBlock s (pad message)
termination_by message.length
decreasing_by simp only [List.length_drop, rate] at *; omega

def hash (message : Bytes) : Bytes :=
  ((absorb (Vector.replicate 25 0) message).toList.take 4).flatMap bytesOfLane

end TraceDebug.Keccak

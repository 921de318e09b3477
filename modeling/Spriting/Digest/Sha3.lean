import Spriting.Digest.Words

/-!
# SHA-3

The digests of the family keep a state of twenty-five lanes in five rows of five.
A block is added to the first lanes and the state is stirred in twenty-four
rounds.  The longer the digest, the shorter the block.
-/

namespace Spriting.Digest

/-- The lanes of a state; column `x` of row `y` is at `5 * y + x`. -/
abbrev Lanes := Array (BitVec 64)

namespace Lanes

/-- The lane in column `x` of row `y`; both are counted round. -/
def lane (s : Lanes) (x y : Nat) : BitVec 64 := s.getD (5 * (y % 5) + x % 5) 0

/-- The state whose lane in column `x` of row `y` is `f x y`. -/
def ofFn (f : Nat → Nat → BitVec 64) : Lanes := (Array.range 25).map fun i => f (i % 5) (i / 5)

/-- The constants that the rounds add to the first lane. -/
def roundConstants : List (BitVec 64) :=
  [0x0000000000000001, 0x0000000000008082, 0x800000000000808a, 0x8000000080008000,
   0x000000000000808b, 0x0000000080000001, 0x8000000080008081, 0x8000000000008009,
   0x000000000000008a, 0x0000000000000088, 0x0000000080008009, 0x000000008000000a,
   0x000000008000808b, 0x800000000000008b, 0x8000000000008089, 0x8000000000008003,
   0x8000000000008002, 0x8000000000000080, 0x000000000000800a, 0x800000008000000a,
   0x8000000080008081, 0x8000000000008080, 0x0000000080000001, 0x8000000080008008]

/-- The rotations of the lanes. -/
def rotations : Array Nat :=
  #[0, 1, 62, 28, 27, 36, 44, 6, 55, 20, 3, 10, 43, 25, 39, 41, 45, 15, 21, 8, 18, 2, 61, 56, 14]

/-- Adds to every lane the sums of the columns on both sides. -/
def mixColumns (s : Lanes) : Lanes :=
  let sums := (Array.range 5).map fun x =>
    s.lane x 0 ^^^ s.lane x 1 ^^^ s.lane x 2 ^^^ s.lane x 3 ^^^ s.lane x 4
  let column (x : Nat) : BitVec 64 := sums.getD (x % 5) 0
  ofFn fun x y => s.lane x y ^^^ column (x + 4) ^^^ (column (x + 1)).rotateLeft 1

/-- Rotates the lanes and moves them about. -/
def moveLanes (s : Lanes) : Lanes :=
  let rotated : Lanes := s.zipWith BitVec.rotateLeft rotations
  ofFn fun x y => rotated.lane (x + 3 * y) x

/-- Adds to every lane what the two to its right have in common. -/
def mixRows (s : Lanes) : Lanes :=
  ofFn fun x y => s.lane x y ^^^ (~~~s.lane (x + 1) y &&& s.lane (x + 2) y)

/-- One round of stirring the state. -/
def round (s : Lanes) (constant : BitVec 64) : Lanes :=
  s.mixColumns.moveLanes.mixRows.modify 0 (· ^^^ constant)

def stir (s : Lanes) : Lanes := roundConstants.foldl round s

/-- Adds a block to the state and stirs it. -/
def absorb (s : Lanes) (block : List UInt8) : Lanes :=
  let words := ((chunks 8 block).map fun w => BitVec.ofNat 64 (ofLittleEndian w)).toArray
  stir (s.zipWith (· ^^^ ·) (words ++ Array.replicate (25 - words.size) 0))

end Lanes

/-- A message filled up to whole blocks: the bits 0, 1 and 1, zeros and a one. -/
def fillSha3 (blockSize : Nat) (message : List UInt8) : List UInt8 :=
  match (blockSize - (message.length + 1) % blockSize) % blockSize with
  | 0 => message ++ [0x86]
  | gap + 1 => message ++ 0x06 :: List.replicate gap 0 ++ [0x80]

/-- The digest of `size` bytes. -/
def sha3 (size : Nat) (message : List UInt8) : List UInt8 :=
  let blockSize := 200 - 2 * size
  let last := (chunks blockSize (fillSha3 blockSize message)).foldl Lanes.absorb
    (Array.replicate 25 0)
  (last.toList.flatMap fun w => toLittleEndian 8 w.toNat).take size

end Spriting.Digest

import Spriting.Digest.Words

/-!
# SHA-2

The digests of the family differ in the width of a word, the number of steps, the
rotations, the state they start from and how much of the last state they show.
The constants of the narrow digests are cut out of those of the wide ones, and
the digests that show only a quarter or a half of a wide state start from a
digest of their own name.
-/

namespace Spriting.Digest

/-- The first 64 binary places of the cube roots of the first eighty primes. -/
def primeCubeRoots : List Nat :=
  [0x428a2f98d728ae22, 0x7137449123ef65cd, 0xb5c0fbcfec4d3b2f, 0xe9b5dba58189dbbc,
   0x3956c25bf348b538, 0x59f111f1b605d019, 0x923f82a4af194f9b, 0xab1c5ed5da6d8118,
   0xd807aa98a3030242, 0x12835b0145706fbe, 0x243185be4ee4b28c, 0x550c7dc3d5ffb4e2,
   0x72be5d74f27b896f, 0x80deb1fe3b1696b1, 0x9bdc06a725c71235, 0xc19bf174cf692694,
   0xe49b69c19ef14ad2, 0xefbe4786384f25e3, 0x0fc19dc68b8cd5b5, 0x240ca1cc77ac9c65,
   0x2de92c6f592b0275, 0x4a7484aa6ea6e483, 0x5cb0a9dcbd41fbd4, 0x76f988da831153b5,
   0x983e5152ee66dfab, 0xa831c66d2db43210, 0xb00327c898fb213f, 0xbf597fc7beef0ee4,
   0xc6e00bf33da88fc2, 0xd5a79147930aa725, 0x06ca6351e003826f, 0x142929670a0e6e70,
   0x27b70a8546d22ffc, 0x2e1b21385c26c926, 0x4d2c6dfc5ac42aed, 0x53380d139d95b3df,
   0x650a73548baf63de, 0x766a0abb3c77b2a8, 0x81c2c92e47edaee6, 0x92722c851482353b,
   0xa2bfe8a14cf10364, 0xa81a664bbc423001, 0xc24b8b70d0f89791, 0xc76c51a30654be30,
   0xd192e819d6ef5218, 0xd69906245565a910, 0xf40e35855771202a, 0x106aa07032bbd1b8,
   0x19a4c116b8d2d0c8, 0x1e376c085141ab53, 0x2748774cdf8eeb99, 0x34b0bcb5e19b48a8,
   0x391c0cb3c5c95a63, 0x4ed8aa4ae3418acb, 0x5b9cca4f7763e373, 0x682e6ff3d6b2b8a3,
   0x748f82ee5defb2fc, 0x78a5636f43172f60, 0x84c87814a1f0ab72, 0x8cc702081a6439ec,
   0x90befffa23631e28, 0xa4506cebde82bde9, 0xbef9a3f7b2c67915, 0xc67178f2e372532b,
   0xca273eceea26619c, 0xd186b8c721c0c207, 0xeada7dd6cde0eb1e, 0xf57d4f7fee6ed178,
   0x06f067aa72176fba, 0x0a637dc5a2c898a6, 0x113f9804bef90dae, 0x1b710b35131c471b,
   0x28db77f523047d84, 0x32caab7b40c72493, 0x3c9ebe0a15c9bebc, 0x431d67c49c100d4c,
   0x4cc5d4becb3e42b6, 0x597f299cfc657e2a, 0x5fcb6fab3ad6faec, 0x6c44198c4a475817]

/-- The first 64 binary places of the square roots of the first eight primes. -/
def primeSquareRoots : List Nat :=
  [0x6a09e667f3bcc908, 0xbb67ae8584caa73b, 0x3c6ef372fe94f82b, 0xa54ff53a5f1d36f1,
   0x510e527fade682d1, 0x9b05688c2b3e6c1f, 0x1f83d9abfb41bd6b, 0x5be0cd19137e2179]

/-- The first 64 binary places of the square roots of the next eight primes. -/
def nextPrimeSquareRoots : List Nat :=
  [0xcbbb9d5dc1059ed8, 0x629a292a367cd507, 0x9159015a3070dd17, 0x152fecd8f70e5939,
   0x67332667ffc00b31, 0x8eb44a8768581511, 0xdb0c2e0d64f98fa7, 0x47b5481dbefa4fa4]

/-- A digest of the family, with words of `8 * size` bits. -/
structure Sha2 (size : Nat) where
  steps : Nat
  start : List Nat
  constants : List Nat
  /-- How many bytes of the last state are shown. -/
  shown : Nat
  /-- The rotations of the first and the fifth word of the state. -/
  firstRotations : Nat × Nat × Nat
  fifthRotations : Nat × Nat × Nat
  /-- Two rotations and a shift for earlier words of the schedule. -/
  nearRotations : Nat × Nat × Nat
  farRotations : Nat × Nat × Nat

structure Sha2State (bits : Nat) where
  a : BitVec bits
  b : BitVec bits
  c : BitVec bits
  d : BitVec bits
  e : BitVec bits
  f : BitVec bits
  g : BitVec bits
  h : BitVec bits
deriving DecidableEq

namespace Sha2State

def words (s : Sha2State bits) : List (BitVec bits) := [s.a, s.b, s.c, s.d, s.e, s.f, s.g, s.h]

def ofWords (w : List (BitVec bits)) : Sha2State bits :=
  ⟨w.getD 0 0, w.getD 1 0, w.getD 2 0, w.getD 3 0, w.getD 4 0, w.getD 5 0, w.getD 6 0, w.getD 7 0⟩

end Sha2State

namespace Sha2

/-- The exclusive or of three rotations of a word. -/
def turned (amounts : Nat × Nat × Nat) (w : BitVec bits) : BitVec bits :=
  w.rotateRight amounts.1 ^^^ w.rotateRight amounts.2.1 ^^^ w.rotateRight amounts.2.2

/-- The exclusive or of two rotations of a word and its shift. -/
def shifted (amounts : Nat × Nat × Nat) (w : BitVec bits) : BitVec bits :=
  w.rotateRight amounts.1 ^^^ w.rotateRight amounts.2.1 ^^^ w >>> amounts.2.2

/-- The words of a block followed by those made of them, one for each step. -/
def schedule (k : Sha2 size) (block : Array (BitVec (8 * size))) : Array (BitVec (8 * size)) :=
  (k.steps - block.size).fold (fun _ _ w =>
    let back (i : Nat) := w.getD (w.size - i) 0
    w.push (shifted k.nearRotations (back 2) + back 7 + shifted k.farRotations (back 15) + back 16)) block

/-- One step of stirring a block into the state. -/
def step (k : Sha2 size) (s : Sha2State (8 * size)) (word constant : BitVec (8 * size)) :
    Sha2State (8 * size) :=
  let first := s.h + turned k.fifthRotations s.e + ((s.e &&& s.f) ^^^ (~~~s.e &&& s.g)) + constant + word
  let second := turned k.firstRotations s.a + ((s.a &&& s.b) ^^^ (s.a &&& s.c) ^^^ (s.b &&& s.c))
  ⟨first + second, s.a, s.b, s.c, s.d + first, s.e, s.f, s.g⟩

/-- Stirs a block into the state. -/
def stir (k : Sha2 size) (s : Sha2State (8 * size)) (block : List (BitVec (8 * size))) :
    Sha2State (8 * size) :=
  let pairs := (k.schedule block.toArray).toList.zip (k.constants.map (BitVec.ofNat _))
  let t := pairs.foldl (fun t p => k.step t p.1 p.2) s
  .ofWords (List.zipWith (· + ·) s.words t.words)

def digest (k : Sha2 size) (message : List UInt8) : List UInt8 :=
  let filled := fill (16 * size) (toBigEndian (2 * size) (8 * message.length)) message
  let start := Sha2State.ofWords (k.start.map (BitVec.ofNat _))
  let last := (blocks size ofBigEndian filled).foldl k.stir start
  (last.words.flatMap fun w => toBigEndian size w.toNat).take k.shown

/-- The highest 32 of 64 bits. -/
def upperHalf (n : Nat) : Nat := n >>> 32

/-- The lowest 32 of 64 bits. -/
def lowerHalf (n : Nat) : Nat := n % 0x100000000

def sha256 : Sha2 4 where
  steps := 64
  start := primeSquareRoots.map upperHalf
  constants := (primeCubeRoots.take 64).map upperHalf
  shown := 32
  firstRotations := (2, 13, 22)
  fifthRotations := (6, 11, 25)
  nearRotations := (17, 19, 10)
  farRotations := (7, 18, 3)

def sha224 : Sha2 4 :=
  { sha256 with start := nextPrimeSquareRoots.map lowerHalf, shown := 28 }

def sha512 : Sha2 8 where
  steps := 80
  start := primeSquareRoots
  constants := primeCubeRoots
  shown := 64
  firstRotations := (28, 34, 39)
  fifthRotations := (14, 18, 41)
  nearRotations := (19, 61, 6)
  farRotations := (1, 8, 7)

def sha384 : Sha2 8 := { sha512 with start := nextPrimeSquareRoots, shown := 48 }

/-- The wide digest that shows `size` bytes. -/
def truncated (size : Nat) : Sha2 8 :=
  let naming : Sha2 8 := { sha512 with start := sha512.start.map fun n => n ^^^ 0xa5a5a5a5a5a5a5a5 }
  let name := "SHA-512/" ++ toString (8 * size)
  { sha512 with
    start := (chunks 8 (naming.digest name.toUTF8.toList)).map ofBigEndian
    shown := size }

end Sha2

end Spriting.Digest

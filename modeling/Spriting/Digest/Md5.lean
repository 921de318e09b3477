import Spriting.Digest.Words

/-!
# MD5

Four words, stirred in four rounds of sixteen steps.  Sums of words wrap round.
-/

namespace Spriting.Digest

/-- The added constants: 2 ^ 32 times the absolute sines of 1 to 64. -/
def md5Constants : List UInt32 :=
  [0xd76aa478, 0xe8c7b756, 0x242070db, 0xc1bdceee, 0xf57c0faf, 0x4787c62a, 0xa8304613, 0xfd469501,
   0x698098d8, 0x8b44f7af, 0xffff5bb1, 0x895cd7be, 0x6b901122, 0xfd987193, 0xa679438e, 0x49b40821,
   0xf61e2562, 0xc040b340, 0x265e5a51, 0xe9b6c7aa, 0xd62f105d, 0x02441453, 0xd8a1e681, 0xe7d3fbc8,
   0x21e1cde6, 0xc33707d6, 0xf4d50d87, 0x455a14ed, 0xa9e3e905, 0xfcefa3f8, 0x676f02d9, 0x8d2a4c8a,
   0xfffa3942, 0x8771f681, 0x6d9d6122, 0xfde5380c, 0xa4beea44, 0x4bdecfa9, 0xf6bb4b60, 0xbebfbc70,
   0x289b7ec6, 0xeaa127fa, 0xd4ef3085, 0x04881d05, 0xd9d4d039, 0xe6db99e5, 0x1fa27cf8, 0xc4ac5665,
   0xf4292244, 0x432aff97, 0xab9423a7, 0xfc93a039, 0x655b59c3, 0x8f0ccc92, 0xffeff47d, 0x85845dd1,
   0x6fa87e4f, 0xfe2ce6e0, 0xa3014314, 0x4e0811a1, 0xf7537e82, 0xbd3af235, 0x2ad7d2bb, 0xeb86d391]

/-- The rotations of a round, taken again and again. -/
def md5Rotations : List (List UInt32) :=
  [[7, 12, 17, 22], [5, 9, 14, 20], [4, 11, 16, 23], [6, 10, 15, 21]]

/-- What a step of stirring does. -/
structure Md5Step where
  round : Nat
  /-- The place of the word of the block that is added. -/
  place : Nat
  constant : UInt32
  rotation : UInt32

/-- Step `i` of the sixty-four. -/
def Md5Step.ofIndex (constant : UInt32) (i : Nat) : Md5Step where
  round := i / 16
  place :=
    match i / 16 with
    | 0 => i
    | 1 => (5 * i + 1) % 16
    | 2 => (3 * i + 5) % 16
    | _ => 7 * i % 16
  constant
  rotation := (md5Rotations.getD (i / 16) []).getD (i % 4) 0

/-- The steps in order. -/
def md5Steps : List Md5Step := md5Constants.zipIdx.map fun p => .ofIndex p.1 p.2

/-- A word turned to the left by less than its width, and by more than nothing. -/
def turnLeft (w amount : UInt32) : UInt32 := (w <<< amount) ||| (w >>> (32 - amount))

structure Md5State where
  a : UInt32
  b : UInt32
  c : UInt32
  d : UInt32
deriving DecidableEq

namespace Md5State

/-- The state before the first block. -/
def start : Md5State := ⟨0x67452301, 0xefcdab89, 0x98badcfe, 0x10325476⟩

/-- The words of the state mixed as a round wants them. -/
def mixed (s : Md5State) : Nat → UInt32
  | 0 => (s.b &&& s.c) ||| (~~~s.b &&& s.d)
  | 1 => (s.d &&& s.b) ||| (~~~s.d &&& s.c)
  | 2 => s.b ^^^ s.c ^^^ s.d
  | _ => s.c ^^^ (s.b ||| ~~~s.d)

/-- One step of stirring a block into the state. -/
def step (block : Array UInt32) (s : Md5State) (t : Md5Step) : Md5State :=
  let sum := s.a + s.mixed t.round + t.constant + block.getD t.place 0
  ⟨s.d, s.b + turnLeft sum t.rotation, s.b, s.c⟩

/-- Stirs a block into the state. -/
def stir (s : Md5State) (block : List UInt8) : Md5State :=
  let words := ((chunks 4 block).map wordOf).toArray
  let t := md5Steps.foldl (step words) s
  ⟨s.a + t.a, s.b + t.b, s.c + t.c, s.d + t.d⟩

end Md5State

def md5 (message : List UInt8) : List UInt8 :=
  let filled := fill 64 (toLittleEndian 8 (8 * message.length)) message
  let s := (chunks 64 filled).foldl Md5State.stir .start
  [s.a, s.b, s.c, s.d].flatMap fun w => toLittleEndian 4 w.toNat

end Spriting.Digest

import Spriting.Digest.Words

/-!
# RIPEMD-160

Five words are stirred along two lines of eighty steps each, which take the words
of a block in different orders; their ends are added up.
-/

namespace Spriting.Digest

structure RipemdState where
  a : BitVec 32
  b : BitVec 32
  c : BitVec 32
  d : BitVec 32
  e : BitVec 32
deriving DecidableEq

/-- What a line of steps does in each of its five rounds. -/
structure RipemdLine where
  /-- The places of the block's words, round by round. -/
  places : List (List Nat)
  rotations : List (List Nat)
  constants : List (BitVec 32)
  /-- The numbers of the functions that mix three words. -/
  mixers : List Nat

namespace RipemdState

/-- The state before the first block. -/
def start : RipemdState := ⟨0x67452301, 0xefcdab89, 0x98badcfe, 0x10325476, 0xc3d2e1f0⟩

/-- The functions that mix three words. -/
def mixed (s : RipemdState) : Nat → BitVec 32
  | 0 => s.b ^^^ s.c ^^^ s.d
  | 1 => (s.b &&& s.c) ||| (~~~s.b &&& s.d)
  | 2 => (s.b ||| ~~~s.c) ^^^ s.d
  | 3 => (s.b &&& s.d) ||| (s.c &&& ~~~s.d)
  | _ => s.b ^^^ (s.c ||| ~~~s.d)

/-- One step along a line. -/
def step (s : RipemdState) (mixer : Nat) (constant word : BitVec 32) (rotation : Nat) :
    RipemdState :=
  ⟨s.e, (s.a + s.mixed mixer + word + constant).rotateLeft rotation + s.e, s.b,
    s.c.rotateLeft 10, s.d⟩

/-- Stirs a block into the state along a line. -/
def follow (s : RipemdState) (line : RipemdLine) (block : Array (BitVec 32)) : RipemdState :=
  (List.range 5).foldl (fun s i =>
    ((line.places.getD i []).zip (line.rotations.getD i [])).foldl (fun s p =>
      s.step (line.mixers.getD i 0) (line.constants.getD i 0) (block.getD p.1 0) p.2) s) s

end RipemdState

namespace RipemdLine

def left : RipemdLine where
  places :=
    [[0, 1, 2, 3, 4, 5, 6, 7, 8, 9, 10, 11, 12, 13, 14, 15],
     [7, 4, 13, 1, 10, 6, 15, 3, 12, 0, 9, 5, 2, 14, 11, 8],
     [3, 10, 14, 4, 9, 15, 8, 1, 2, 7, 0, 6, 13, 11, 5, 12],
     [1, 9, 11, 10, 0, 8, 12, 4, 13, 3, 7, 15, 14, 5, 6, 2],
     [4, 0, 5, 9, 7, 12, 2, 10, 14, 1, 3, 8, 11, 6, 15, 13]]
  rotations :=
    [[11, 14, 15, 12, 5, 8, 7, 9, 11, 13, 14, 15, 6, 7, 9, 8],
     [7, 6, 8, 13, 11, 9, 7, 15, 7, 12, 15, 9, 11, 7, 13, 12],
     [11, 13, 6, 7, 14, 9, 13, 15, 14, 8, 13, 6, 5, 12, 7, 5],
     [11, 12, 14, 15, 14, 15, 9, 8, 9, 14, 5, 6, 8, 6, 5, 12],
     [9, 15, 5, 11, 6, 8, 13, 12, 5, 12, 13, 14, 11, 8, 5, 6]]
  constants := [0, 0x5a827999, 0x6ed9eba1, 0x8f1bbcdc, 0xa953fd4e]
  mixers := [0, 1, 2, 3, 4]

def right : RipemdLine where
  places :=
    [[5, 14, 7, 0, 9, 2, 11, 4, 13, 6, 15, 8, 1, 10, 3, 12],
     [6, 11, 3, 7, 0, 13, 5, 10, 14, 15, 8, 12, 4, 9, 1, 2],
     [15, 5, 1, 3, 7, 14, 6, 9, 11, 8, 12, 2, 10, 0, 4, 13],
     [8, 6, 4, 1, 3, 11, 15, 0, 5, 12, 2, 13, 9, 7, 10, 14],
     [12, 15, 10, 4, 1, 5, 8, 7, 6, 2, 13, 14, 0, 3, 9, 11]]
  rotations :=
    [[8, 9, 9, 11, 13, 15, 15, 5, 7, 7, 8, 11, 14, 14, 12, 6],
     [9, 13, 15, 7, 12, 8, 9, 11, 7, 7, 12, 7, 6, 15, 13, 11],
     [9, 7, 15, 11, 8, 6, 6, 14, 12, 13, 5, 14, 13, 13, 7, 5],
     [15, 5, 8, 11, 14, 14, 6, 14, 6, 9, 12, 9, 12, 5, 15, 8],
     [8, 5, 12, 9, 12, 5, 14, 6, 8, 13, 6, 5, 15, 13, 11, 11]]
  constants := [0x50a28be6, 0x5c4dd124, 0x6d703ef3, 0x7a6d76e9, 0]
  mixers := [4, 3, 2, 1, 0]

end RipemdLine

/-- Stirs a block into the state. -/
def RipemdState.stir (s : RipemdState) (block : List (BitVec 32)) : RipemdState :=
  let l := s.follow .left block.toArray
  let r := s.follow .right block.toArray
  ⟨s.b + l.c + r.d, s.c + l.d + r.e, s.d + l.e + r.a, s.e + l.a + r.b, s.a + l.b + r.c⟩

def ripemd (message : List UInt8) : List UInt8 :=
  let filled := fill 64 (toLittleEndian 8 (8 * message.length)) message
  let s := (blocks 4 ofLittleEndian filled).foldl RipemdState.stir .start
  [s.a, s.b, s.c, s.d, s.e].flatMap fun w => toLittleEndian 4 w.toNat

end Spriting.Digest

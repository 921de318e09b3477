import Spriting.Digest.Words

/-!
# SM3

Eight words, stirred in sixty-four steps.
-/

namespace Spriting.Digest

structure Sm3State where
  a : BitVec 32
  b : BitVec 32
  c : BitVec 32
  d : BitVec 32
  e : BitVec 32
  f : BitVec 32
  g : BitVec 32
  h : BitVec 32
deriving DecidableEq

/-- A word added to two rotations of itself. -/
def spread (near far : Nat) (w : BitVec 32) : BitVec 32 :=
  w ^^^ w.rotateLeft near ^^^ w.rotateLeft far

/-- The words of a block followed by fifty-two more made of them. -/
def sm3Schedule (block : Array (BitVec 32)) : Array (BitVec 32) :=
  (52 : Nat).fold (fun _ _ w =>
    let back (k : Nat) := w.getD (w.size - k) 0
    w.push (spread 15 23 (back 16 ^^^ back 9 ^^^ (back 3).rotateLeft 15)
      ^^^ (back 13).rotateLeft 7 ^^^ back 6)) block

namespace Sm3State

/-- The state before the first block. -/
def start : Sm3State :=
  ⟨0x7380166f, 0x4914b2b9, 0x172442d7, 0xda8a0600, 0xa96f30bc, 0x163138aa, 0xe38dee4d, 0xb0fb0e4e⟩

/-- Step `i` of stirring a block into the state. -/
def step (words : Array (BitVec 32)) (s : Sm3State) (i : Nat) : Sm3State :=
  let word := words.getD i 0
  let (first, fifth, constant) :=
    if i < 16 then (s.a ^^^ s.b ^^^ s.c, s.e ^^^ s.f ^^^ s.g, 0x79cc4519#32)
    else ((s.a &&& s.b) ||| (s.a &&& s.c) ||| (s.b &&& s.c),
      (s.e &&& s.f) ||| (~~~s.e &&& s.g), 0x7a879d8a#32)
  let turned := s.a.rotateLeft 12
  let sum := (turned + s.e + constant.rotateLeft (i % 32)).rotateLeft 7
  ⟨first + s.d + (sum ^^^ turned) + (word ^^^ words.getD (i + 4) 0), s.a, s.b.rotateLeft 9, s.c,
    spread 9 17 (fifth + s.h + sum + word), s.e, s.f.rotateLeft 19, s.g⟩

/-- Stirs a block into the state. -/
def stir (s : Sm3State) (block : List (BitVec 32)) : Sm3State :=
  let t := (List.range 64).foldl (step (sm3Schedule block.toArray)) s
  ⟨s.a ^^^ t.a, s.b ^^^ t.b, s.c ^^^ t.c, s.d ^^^ t.d, s.e ^^^ t.e, s.f ^^^ t.f, s.g ^^^ t.g,
    s.h ^^^ t.h⟩

end Sm3State

def sm3 (message : List UInt8) : List UInt8 :=
  let filled := fill 64 (toBigEndian 8 (8 * message.length)) message
  let s := (blocks 4 ofBigEndian filled).foldl Sm3State.stir .start
  [s.a, s.b, s.c, s.d, s.e, s.f, s.g, s.h].flatMap fun w => toBigEndian 4 w.toNat

end Spriting.Digest

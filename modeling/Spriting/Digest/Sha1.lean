import Spriting.Digest.Words

/-!
# SHA-1

Five words, stirred in eighty steps.
-/

namespace Spriting.Digest

structure Sha1State where
  a : BitVec 32
  b : BitVec 32
  c : BitVec 32
  d : BitVec 32
  e : BitVec 32
deriving DecidableEq

/-- The state before the first block. -/
def Sha1State.start : Sha1State :=
  ⟨0x67452301, 0xefcdab89, 0x98badcfe, 0x10325476, 0xc3d2e1f0⟩

/-- The words of a block followed by `n` more, each made of four earlier ones. -/
def sha1Schedule (block : Array (BitVec 32)) (n : Nat) : Array (BitVec 32) :=
  n.fold (fun _ _ w =>
    let back (k : Nat) := w.getD (w.size - k) 0
    w.push ((back 3 ^^^ back 8 ^^^ back 14 ^^^ back 16).rotateLeft 1)) block

/-- Step `i` of stirring a block into the state. -/
def Sha1State.step (s : Sha1State) (i : Nat) (word : BitVec 32) : Sha1State :=
  let (mixed, constant) := match i / 20 with
    | 0 => ((s.b &&& s.c) ||| (~~~s.b &&& s.d), 0x5a827999#32)
    | 1 => (s.b ^^^ s.c ^^^ s.d, 0x6ed9eba1#32)
    | 2 => ((s.b &&& s.c) ||| (s.b &&& s.d) ||| (s.c &&& s.d), 0x8f1bbcdc#32)
    | _ => (s.b ^^^ s.c ^^^ s.d, 0xca62c1d6#32)
  ⟨s.a.rotateLeft 5 + mixed + s.e + constant + word, s.a, s.b.rotateLeft 30, s.c, s.d⟩

/-- Stirs a block into the state. -/
def Sha1State.stir (s : Sha1State) (block : List (BitVec 32)) : Sha1State :=
  let words := (sha1Schedule block.toArray 64).toList
  let t := words.zipIdx.foldl (fun t p => t.step p.2 p.1) s
  ⟨s.a + t.a, s.b + t.b, s.c + t.c, s.d + t.d, s.e + t.e⟩

def sha1 (message : List UInt8) : List UInt8 :=
  let filled := fill 64 (toBigEndian 8 (8 * message.length)) message
  let s := (blocks 4 ofBigEndian filled).foldl Sha1State.stir .start
  [s.a, s.b, s.c, s.d, s.e].flatMap fun w => toBigEndian 4 w.toNat

end Spriting.Digest

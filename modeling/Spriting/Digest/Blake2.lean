import Spriting.Digest.Sha2

/-!
# BLAKE2

The wide and the narrow digest differ in the width of a word, the number of
rounds and the rotations.  Sixteen words are stirred by columns and by diagonals,
in an order of the block's words that changes from round to round.
-/

namespace Spriting.Digest

/-- A digest of the family, with words of `8 * size` bits. -/
structure Blake2 (size : Nat) where
  rounds : Nat
  start : List Nat
  rotations : Nat × Nat × Nat × Nat

namespace Blake2

/-- The orders in which rounds take the words of a block, again and again. -/
def orders : List (List Nat) :=
  [[0, 1, 2, 3, 4, 5, 6, 7, 8, 9, 10, 11, 12, 13, 14, 15],
   [14, 10, 4, 8, 9, 15, 13, 6, 1, 12, 0, 2, 11, 7, 5, 3],
   [11, 8, 12, 0, 5, 2, 15, 13, 10, 14, 3, 6, 7, 1, 9, 4],
   [7, 9, 3, 1, 13, 12, 11, 14, 2, 6, 5, 10, 4, 0, 15, 8],
   [9, 0, 5, 7, 2, 4, 10, 15, 14, 1, 11, 12, 6, 8, 3, 13],
   [2, 12, 6, 10, 0, 11, 8, 3, 4, 13, 7, 5, 15, 14, 1, 9],
   [12, 5, 1, 15, 14, 13, 4, 10, 0, 7, 6, 3, 9, 2, 8, 11],
   [13, 11, 7, 14, 12, 1, 3, 9, 5, 0, 15, 4, 8, 6, 2, 10],
   [6, 15, 14, 9, 11, 3, 0, 8, 12, 2, 13, 7, 1, 4, 10, 5],
   [10, 2, 8, 4, 7, 6, 1, 5, 15, 11, 9, 14, 3, 12, 13, 0]]

/-- The places of the words that are stirred together: columns, then diagonals. -/
def quarters : List (Nat × Nat × Nat × Nat) :=
  [(0, 4, 8, 12), (1, 5, 9, 13), (2, 6, 10, 14), (3, 7, 11, 15),
   (0, 5, 10, 15), (1, 6, 11, 12), (2, 7, 8, 13), (3, 4, 9, 14)]

/-- Stirs four words of the state together with two of the block. -/
def mix (k : Blake2 size) (v : Array (BitVec (8 * size))) (places : Nat × Nat × Nat × Nat)
    (x y : BitVec (8 * size)) : Array (BitVec (8 * size)) :=
  let (i, j, m, n) := places
  let (r₁, r₂, r₃, r₄) := k.rotations
  let a := v.getD i 0 + v.getD j 0 + x
  let d := (v.getD n 0 ^^^ a).rotateRight r₁
  let c := v.getD m 0 + d
  let b := (v.getD j 0 ^^^ c).rotateRight r₂
  let a := a + b + y
  let d := (d ^^^ a).rotateRight r₃
  let c := c + d
  let b := (b ^^^ c).rotateRight r₄
  (((v.setIfInBounds i a).setIfInBounds j b).setIfInBounds m c).setIfInBounds n d

/-- A round of stirring a block into the state. -/
def round (k : Blake2 size) (block v : Array (BitVec (8 * size))) (order : List Nat) :
    Array (BitVec (8 * size)) :=
  let words := chunks 2 (order.map fun i => block.getD i 0)
  (quarters.zip words).foldl (fun v p => k.mix v p.1 (p.2.getD 0 0) (p.2.getD 1 0)) v

/-- The start of the state, as words. -/
def startWords (k : Blake2 size) : Array (BitVec (8 * size)) :=
  (k.start.map (BitVec.ofNat _)).toArray

/-- Stirs a block into the state.  `count` is the number of bytes of the message
up to its end, and `isLast` says whether the message ends with it. -/
def stir (k : Blake2 size) (h : Array (BitVec (8 * size))) (block : List UInt8) (count : Nat)
    (isLast : Bool) : Array (BitVec (8 * size)) :=
  let filled := block ++ List.replicate (16 * size - block.length) 0
  let words := ((chunks size filled).map fun w => BitVec.ofNat (8 * size) (ofLittleEndian w)).toArray
  let marks : Array (BitVec (8 * size)) :=
    #[0, 0, 0, 0, BitVec.ofNat _ count, BitVec.ofNat _ (count >>> (8 * size)),
      if isLast then -1 else 0, 0]
  let v := h ++ k.startWords.zipWith (· ^^^ ·) marks
  let v := ((List.range k.rounds).map fun i => orders.getD (i % 10) []).foldl (k.round words) v
  h.zipWith (· ^^^ ·) ((v.take 8).zipWith (· ^^^ ·) (v.drop 8))

/-- Stirs blocks into the state, of which the first starts behind `count` bytes. -/
def stirAll (k : Blake2 size) (h : Array (BitVec (8 * size))) (count : Nat) :
    List (List UInt8) → Array (BitVec (8 * size))
  | [] => h
  | block :: rest =>
    let count := count + block.length
    k.stirAll (k.stir h block count rest.isEmpty) count rest

/-- The digest of `8 * size` bytes. -/
def digest (k : Blake2 size) (message : List UInt8) : List UInt8 :=
  let h := k.startWords.modify 0 (· ^^^ BitVec.ofNat _ (0x01010000 + 8 * size))
  let blocks := if message = [] then [[]] else chunks (16 * size) message
  (k.stirAll h 0 blocks).toList.flatMap fun w => toLittleEndian size w.toNat

def wide : Blake2 8 where
  rounds := 12
  start := primeSquareRoots
  rotations := (32, 24, 16, 63)

def narrow : Blake2 4 where
  rounds := 10
  start := primeSquareRoots.map Sha2.upperHalf
  rotations := (16, 12, 8, 7)

end Blake2

end Spriting.Digest

/-!
# Similar texts

Two texts are compared by their longest common block, then by the longest common
blocks to the left and to the right of it, and so on.  Their likeness is the
share of characters in common blocks; texts are similar from three fifths on.
-/

namespace Spriting.Text

/-- How many characters two texts have in common at the front. -/
def commonStart : List Char → List Char → Nat
  | a :: as, b :: bs => if a = b then commonStart as bs + 1 else 0
  | _, _ => 0

/-- The longest common block: where it starts in the first text and in the
second, and its length.  Of several the one that starts first is taken, in the
first text before the second. -/
def longestBlock (a b : List Char) : Nat × Nat × Nat :=
  (List.range a.length).foldl (fun best i =>
    (List.range b.length).foldl (fun best j =>
      let k := commonStart (a.drop i) (b.drop j)
      if best.2.2 < k then (i, j, k) else best) best) (0, 0, 0)

/-- The number of characters in common blocks, with fuel for as many blocks as
one text has characters. -/
def commonLength (fuel : Nat) (a b : List Char) : Nat :=
  match fuel with
  | 0 => 0
  | fuel + 1 =>
    let (i, j, k) := longestBlock a b
    if k = 0 then 0
    else
      commonLength fuel (a.take i) (b.take j) + k
        + commonLength fuel (a.drop (i + k)) (b.drop (j + k))

/-- The characters in common blocks, and those of both texts. -/
def likeness (a b : String) : Nat × Nat :=
  (2 * commonLength a.length a.toList b.toList, a.length + b.length)

/-- At most three of the texts that are similar to `text`, the most similar first. -/
def similarTexts (text : String) (known : List String) : List String :=
  let scored := known.map fun k => (k, likeness k text)
  let similar := scored.filter fun p => 3 * p.2.2 ≤ 5 * p.2.1
  let closer (p q : String × Nat × Nat) : Bool :=
    if p.2.1 * q.2.2 = q.2.1 * p.2.2 then q.1 ≤ p.1 else q.2.1 * p.2.2 < p.2.1 * q.2.2
  ((similar.mergeSort closer).take 3).map (·.1)

end Spriting.Text

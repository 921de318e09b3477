import Spriting.Layout.Box

/-!
# Packing trees

A packing tree cuts a canvas into free boxes and boxes that hold an item in
their top left corner.  The space that an item leaves is cut in two: the strip
to the right of it, as high as the item, and all that lies below.

* `find?` looks for a free box, to the right before below;
* `grow` widens or heightens the canvas where no free box is large enough;
* `place_eq_none_iff`: an item is placed exactly where a free box is found.
-/

namespace Spriting.Layout

inductive Tree where
  | free (box : Box)
  /-- A box in use that was never cut. -/
  | filled (box : Box)
  | split (box : Box) (right below : Tree)
deriving DecidableEq, Repr, Inhabited

namespace Tree

def box : Tree → Box
  | free b => b
  | filled b => b
  | split b _ _ => b

/-- Puts an item of this size into the corner of a box and cuts the rest. -/
def cut (w h : Int) (b : Box) : Tree :=
  split b (free ⟨b.x + w, b.y, b.width - w, h⟩) (free ⟨b.x, b.y + h, b.width, b.height - h⟩)

/-- Whether an item of this size fits into a box. -/
def fits (w h : Int) (b : Box) : Bool := w ≤ b.width && h ≤ b.height

/-- The free box for an item of this size. -/
def find? (w h : Int) : Tree → Option Box
  | free b => if fits w h b then some b else none
  | filled _ => none
  | split _ right below => (right.find? w h).or (below.find? w h)

/-- Puts an item of this size into the box that `find?` finds. -/
def place (w h : Int) : Tree → Option (Tree × Box)
  | free b => if fits w h b then some (cut w h b, b) else none
  | filled _ => none
  | split b right below =>
    match right.place w h with
    | some (right', found) => some (split b right' below, found)
    | none => (below.place w h).map fun p => (split b right p.1, p.2)

theorem place_eq_none_iff {w h : Int} {t : Tree} : t.place w h = none ↔ t.find? w h = none := by
  induction t with
  | free b => simp only [place, find?]; split <;> simp
  | filled b => simp [place, find?]
  | split b right below ihr ihb =>
    simp only [place, find?]
    cases hr : right.place w h with
    | none => simp [ihr.1 hr, ihb]
    | some p =>
      have : right.find? w h ≠ none := fun hn => by simp [ihr.2 hn] at hr
      cases hf : right.find? w h with
      | none => exact absurd hf this
      | some b => simp

/-- The canvas with a free strip of width `w` on its right. -/
def widen (w : Int) (t : Tree) : Tree :=
  let b := t.box
  split ⟨0, 0, b.width + w, b.height⟩ (free ⟨b.width, 0, w, b.height⟩) t

/-- The canvas with a free strip of height `h` below it. -/
def heighten (h : Int) (t : Tree) : Tree :=
  let b := t.box
  split ⟨0, 0, b.width, b.height + h⟩ t (free ⟨0, b.height, b.width, h⟩)

/-- The larger canvas for an item of this size.  It grows on the side that keeps
it closest to a square, among the sides along which the item does not stick out. -/
def grown (w h : Int) (t : Tree) : Option Tree :=
  let b := t.box
  let widens := h ≤ b.height
  let heightens := w ≤ b.width
  if widens ∧ b.width + w ≤ b.height then some (t.widen w)
  else if heightens ∧ b.height + h ≤ b.width then some (t.heighten h)
  else if widens then some (t.widen w)
  else if heightens then some (t.heighten h)
  else none

/-- Puts an item of this size into the larger canvas. -/
def grow (w h : Int) (t : Tree) : Option (Tree × Box) := (t.grown w h).bind (·.place w h)

/-- Puts an item of this size into a free box, or into a larger canvas. -/
def insert (w h : Int) (t : Tree) : Option (Tree × Box) := (t.place w h).or (t.grow w h)

/-- The origins of items put in one after another, and the tree that holds them. -/
def insertAll (t : Tree) : List Item → Except LayoutError (List (Int × Int) × Tree)
  | [] => .ok ([], t)
  | i :: items =>
    match t.insert i.width i.height with
    | none => .error (.unplaceable i)
    | some (t', found) => (t'.insertAll items).map fun p => ((found.x, found.y) :: p.1, p.2)

/-- The tree for a list of items before the first is put in: a canvas of its size. -/
def seed (items : List Item) : Tree :=
  match items with
  | [] => free ⟨0, 0, 0, 0⟩
  | i :: _ => free ⟨0, 0, i.width, i.height⟩

/-- The free boxes. -/
def leaves : Tree → List Box
  | free b => [b]
  | filled _ => []
  | split _ right below => right.leaves ++ below.leaves

end Tree

/-- The order in which items are put into a tree: by the longer side, then the
shorter side, then the height, the greatest first. -/
def largerFirst (a b : Item) : Bool :=
  let long (i : Item) := max i.width i.height
  let short (i : Item) := min i.width i.height
  if long a ≠ long b then long b < long a
  else if short a ≠ short b then short b < short a
  else b.height ≤ a.height

end Spriting.Layout

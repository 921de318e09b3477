import Spriting.Background.Image
import Spriting.Layout.Stack
import Spriting.Layout.Tree

/-!
# Layouts

A layout takes the items in the order of its algorithm, gives each an origin and
answers them in the order in which they came.
-/

namespace Spriting.Layout

inductive Algorithm where
  | topDown
  | leftRight
  | binaryTree
deriving DecidableEq, Repr

namespace Algorithm

def name : Algorithm → String
  | topDown => "top-down"
  | leftRight => "left-right"
  | binaryTree => "binary-tree"

def ofName? (name : String) : Option Algorithm :=
  [topDown, leftRight, binaryTree].find? (·.name == name)

/-- Whether the first item is taken no later than the second. -/
def before : Algorithm → Item → Item → Bool
  | topDown => lowerFirst
  | leftRight => narrowerFirst
  | binaryTree => largerFirst

/-- The origins of items taken in this order. -/
def origins : Algorithm → List Item → Except LayoutError (List (Int × Int))
  | topDown, items => .ok (column 0 items)
  | leftRight, items => .ok (row 0 items)
  | binaryTree, items => ((Tree.seed items).insertAll items).map (·.1)

end Algorithm

/-- The layout that keeps a repeating axis clear of other images. -/
def algorithmFor : Background.RepeatMode → Algorithm
  | .horizontal => .topDown
  | .vertical => .leftRight
  | .once => .binaryTree

/-- Gives every item its place, in the order in which they came. -/
def arrange (algorithm : Algorithm) (items : List Item) : Except LayoutError (List Item) :=
  let taken := items.zipIdx.mergeSort fun a b => algorithm.before a.1 b.1
  (algorithm.origins (taken.map (·.1))).map fun origins =>
    let placed := (taken.zip origins).map fun p => ({ p.1.1 with x := p.2.1, y := p.2.2 }, p.1.2)
    (placed.mergeSort fun a b => a.2 ≤ b.2).map (·.1)

/-- Lays items out by the algorithm of this name. -/
def arrangeNamed (name : String) (items : List Item) : Except LayoutError (List Item) :=
  match Algorithm.ofName? name with
  | some algorithm => arrange algorithm items
  | none => .error (.unknownAlgorithm name)

end Spriting.Layout

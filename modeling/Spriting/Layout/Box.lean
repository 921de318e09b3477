import Spriting.Text.Quoted

/-!
# Boxes

The items of a layout are boxes with a key.  Coordinates grow to the right and
down, and a box reaches from its origin by its width and height.
-/

namespace Spriting.Layout

/-- A rectangle with its top left corner at `(x, y)`. -/
structure Box where
  x : Int
  y : Int
  width : Int
  height : Int
deriving DecidableEq, Repr, Inhabited

/-- A box that is to be placed, and where it stands. -/
structure Item where
  key : String
  width : Int
  height : Int
  x : Int := 0
  y : Int := 0
deriving DecidableEq, Repr, Inhabited

def Item.box (i : Item) : Box := ⟨i.x, i.y, i.width, i.height⟩

/-- Why a layout is refused. -/
inductive LayoutError where
  | unknownAlgorithm (name : String)
  | unplaceable (item : Item)
deriving DecidableEq, Repr

def LayoutError.message : LayoutError → String
  | unknownAlgorithm name => "Unknown layout algorithm: " ++ Text.quoted name
  | unplaceable item =>
    "Cannot place " ++ item.key ++ " (" ++ toString item.width ++ "x" ++ toString item.height ++ ")"

/-- The largest of some numbers, 0 if there are none. -/
def greatest : List Int → Int
  | [] => 0
  | n :: ns => ns.foldl max n

/-- The width and height that items span from `(0, 0)`. -/
def extent (items : List Item) : Int × Int :=
  (greatest (items.map fun i => i.x + i.width), greatest (items.map fun i => i.y + i.height))

end Spriting.Layout

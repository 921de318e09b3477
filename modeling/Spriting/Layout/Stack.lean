import Spriting.Layout.Box

/-!
# Stacks

One column or one row, without gaps.  In a column every row of the sheet belongs
to at most one item, in a row every column does.
-/

namespace Spriting.Layout

/-- The origins of items in one column whose next free place is at `y`. -/
def column (y : Int) : List Item → List (Int × Int)
  | [] => []
  | i :: items => (0, y) :: column (y + i.height) items

/-- The origins of items in one row whose next free place is at `x`. -/
def row (x : Int) : List Item → List (Int × Int)
  | [] => []
  | i :: items => (x, 0) :: row (x + i.width) items

/-- The order in which items are stacked in a column: the lowest first. -/
def lowerFirst (a b : Item) : Bool := a.height ≤ b.height

/-- The order in which items are stacked in a row: the narrowest first. -/
def narrowerFirst (a b : Item) : Bool := a.width ≤ b.width

end Spriting.Layout

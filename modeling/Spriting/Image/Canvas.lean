import Spriting.Image.Raster

/-!
# Canvases

Images are put together on a canvas, each at its place.

* `pixel_compose`: the last layer that covers a pixel gives it its colour.
-/

namespace Spriting.Image

/-- An image that lies on a canvas with its top left corner at `(x, y)`. -/
structure Layer where
  image : Raster
  x : Int
  y : Int

namespace Layer

/-- Whether a layer covers pixels in row `y` of its canvas. -/
def meetsRow (l : Layer) (y : Nat) : Bool := l.y ≤ y && y < l.y + l.image.height

/-- Whether a layer covers the pixel in column `x` and row `y` of its canvas. -/
def covers (l : Layer) (x y : Nat) : Bool := l.x ≤ x && x < l.x + l.image.width && l.meetsRow y

/-- The colour that a layer gives to a pixel of its canvas. -/
def pixel (l : Layer) (x y : Nat) : Pixel := l.image.pixel (x - l.x).toNat (y - l.y).toNat

end Layer

/-- The colour that the first of some layers that covers a pixel gives to it. -/
def topPixel (layers : List Layer) (x y : Nat) : Pixel :=
  match layers.find? (·.covers x y) with
  | some l => l.pixel x y
  | none => .clear

/-- The canvas of this size with layers on it.  Of the layers that cover a pixel
the last one replaces the others, and what sticks out is cut off. -/
def compose (width height : Nat) (layers : List Layer) : Raster :=
  let top := layers.reverse
  let rows := (Array.range height).map fun y => top.filter (·.meetsRow y)
  { width, height, pixel := fun x y => topPixel (rows.getD y []) x y }

theorem find?_covers_filter (layers : List Layer) (x y : Nat) :
    (layers.filter (·.meetsRow y)).find? (·.covers x y) = layers.find? (·.covers x y) := by
  rw [List.find?_filter]
  congr 1
  funext l
  cases h : l.meetsRow y <;> simp [Layer.covers, h]

theorem pixel_compose {width height : Nat} (layers : List Layer) (x : Nat) {y : Nat}
    (hy : y < height) :
    (compose width height layers).pixel x y = topPixel layers.reverse x y := by
  have hrow : (compose width height layers).pixel x y
      = topPixel (layers.reverse.filter (·.meetsRow y)) x y := by
    simp [compose, hy]
  rw [hrow, topPixel, find?_covers_filter, topPixel]

end Spriting.Image

/-!
# Images

An image is its size and the colour of each of its pixels, with red, green, blue
and opacity in a byte each.

The written form of an image is its size in decimal, `x` between width and
height, a line feed, and the bytes of the pixels row by row.
-/

namespace Spriting

/-- A sequence of bytes. -/
abbrev Bytes := List UInt8

/-- The bytes of a text. -/
def utf8 (text : String) : Bytes := text.toUTF8.data.toList

namespace Image

structure Pixel where
  red : UInt8
  green : UInt8
  blue : UInt8
  alpha : UInt8
deriving DecidableEq, Repr, Inhabited

/-- Black that does not show at all. -/
def Pixel.clear : Pixel := ⟨0, 0, 0, 0⟩

def Pixel.bytes (p : Pixel) : Bytes := [p.red, p.green, p.blue, p.alpha]

/-- An image.  `pixel x y` is the colour in column `x` and row `y`; it means
nothing outside the image. -/
structure Raster where
  width : Nat
  height : Nat
  pixel : Nat → Nat → Pixel
deriving Inhabited

namespace Raster

/-- The bytes of a row. -/
def rowBytes (r : Raster) (y : Nat) : Bytes :=
  (List.range r.width).flatMap fun x => (r.pixel x y).bytes

/-- The bytes of all pixels, row by row. -/
def pixels (r : Raster) : Bytes := (List.range r.height).flatMap r.rowBytes

/-- The image of a size whose pixels have these bytes, row by row. -/
def ofPixels (width height : Nat) (bytes : Bytes) : Raster :=
  let colours := bytes.toArray
  let byte (i : Nat) : UInt8 := colours.getD i 0
  { width
    height
    pixel := fun x y =>
      let i := 4 * (y * width + x)
      ⟨byte i, byte (i + 1), byte (i + 2), byte (i + 3)⟩ }

/-- The written form of an image. -/
def encode (r : Raster) : Bytes :=
  utf8 (toString r.width ++ "x" ++ toString r.height ++ "\n") ++ r.pixels

/-- The number that decimal digits write. -/
def readNumber (digits : Bytes) : Option Nat :=
  if digits ≠ [] ∧ digits.all (fun d => 48 ≤ d && d ≤ 57) then
    some (digits.foldl (fun n d => 10 * n + (d.toNat - 48)) 0)
  else none

/-- The image of a written form. -/
def decode? (bytes : Bytes) : Option Raster := do
  let width ← readNumber (bytes.takeWhile (· != 120))
  let rest := (bytes.dropWhile (· != 120)).drop 1
  let height ← readNumber (rest.takeWhile (· != 10))
  let colours := (rest.dropWhile (· != 10)).drop 1
  guard (colours.length = 4 * width * height)
  return ofPixels width height colours

end Raster

end Image

end Spriting

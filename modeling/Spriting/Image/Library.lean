import Spriting.Failure
import Spriting.Image.Canvas
import Spriting.Text.Quoted

/-!
# Image libraries

To read an image out of a file, to make a canvas with images on it and to write it
is left to a library, and each of the three can fail.

The plain library reads and writes the written form of images and no other.  Its
coordinates are numbers of 32 bits with a sign, and it refuses a canvas that would
not fit into memory.
-/

namespace Spriting.Image

/-- Why images cannot be put on a canvas. -/
inductive CanvasError where
  /-- A coordinate has more than 64 bits. -/
  | outOfRange
  | tooLarge
  | tooSmall
  | noMemory
  | failed (f : Failure)
deriving DecidableEq, Repr

def CanvasError.message : CanvasError → String
  | outOfRange => "Python int too large to convert to C long"
  | tooLarge => "signed integer is greater than maximum"
  | tooSmall => "signed integer is less than minimum"
  | noMemory => ""
  | failed f => f.text

/-- What a library does, or fails to do. -/
structure Library where
  /-- Reads the image that the bytes of the file at a path hold. -/
  decode : String → Bytes → Except Failure Raster
  /-- Makes a canvas of a width and a height and puts layers on it in order. -/
  canvas : Nat → Nat → List Layer → Except CanvasError Unit
  encode : Raster → Except Failure Bytes

/-! ## Plain libraries -/

/-- Checks a coordinate. -/
def checkCoordinate (n : Int) : Except CanvasError Unit :=
  if n < -0x8000000000000000 ∨ 0x8000000000000000 ≤ n then .error .outOfRange
  else if 0x80000000 ≤ n then .error .tooLarge
  else if n < -0x80000000 then .error .tooSmall
  else .ok ()

/-- Checks the size of a canvas.  A row has less than 2 ^ 31 bytes and the canvas
less than 2 ^ 47. -/
def checkSize (width height : Nat) : Except CanvasError Unit := do
  checkCoordinate width
  checkCoordinate height
  if 0x1ffffffe < width ∨ 0x800000000000 ≤ 4 * width * height then throw .noMemory

/-- Checks where an image of a size lies. -/
def checkPlace (x y : Int) (width height : Nat) : Except CanvasError Unit := do
  checkCoordinate x
  checkCoordinate y
  checkCoordinate (x + width)
  checkCoordinate (y + height)

namespace Library

/-- The library that writes images and cannot read what it has written.  All images
that it can read are known as such before. -/
def oneWay : Library where
  decode path _ := .error ⟨.system, "cannot identify image file " ++ Text.quoted path⟩
  canvas width height layers := do
    checkSize width height
    layers.forM fun l => checkPlace l.x l.y l.image.width l.image.height
  encode image := .ok image.encode

/-- The library that reads what it has written. -/
def plain : Library :=
  { oneWay with
    decode := fun path bytes =>
      match Raster.decode? bytes with
      | some image => .ok image
      | none => oneWay.decode path bytes }

end Library

end Spriting.Image

import Spriting.Background.Placement
import Spriting.Files.Tree
import Spriting.Image.Library
import Spriting.Layout.Algorithm

/-!
# Sprite sheets

A sprite sheet is one image that holds others, and the box of each in it by its
path.  Padding to the right of every image and below it keeps them apart; it is
cut off at the edges of the sheet.

* An image that is named twice is packed once.
* All images are loaded before anything else happens.
* The sheet is drawn and written by a library of images.
-/

namespace Spriting.Sprite

open Background Files Image Layout

structure SpriteSheet where
  image : Raster
  /-- The boxes of the images, in the order in which they were named. -/
  placements : List (String × Box)

/-- The sheet as rules see it. -/
def SpriteSheet.map (s : SpriteSheet) : SpriteMap := ⟨s.image.width, s.image.height, s.placements⟩

/-- A sprite sheet and the file that holds its image. -/
structure SpriteFile extends SpriteSheet where
  content : Bytes

/-- Why images could not be packed. -/
inductive PackError where
  | noImages
  | unreadable (path : String) (cause : LoadError)
  | layout (cause : LayoutError)
  | canvas (cause : CanvasError)
  | encode (width height : Nat) (cause : Failure)
deriving DecidableEq, Repr

namespace PackError

/-- Whether packing tells of a failure as one of its own.  Any other failure of the
library goes on as it is. -/
def isReported : PackError → Bool
  | noImages => true
  | unreadable _ cause => cause.isSystem
  | layout _ => true
  | canvas _ => false
  | encode _ _ cause => cause.kind ≠ .other

def message (e : PackError) : String :=
  match e with
  | noImages => "No images to pack"
  | unreadable path cause =>
    if e.isReported then "Cannot load image " ++ path ++ ": " ++ cause.message path
    else cause.message path
  | layout cause => cause.message
  | canvas cause => cause.message
  | encode width height cause =>
    if e.isReported then
      "Cannot encode " ++ toString width ++ "x" ++ toString height ++ " sprite sheet: "
        ++ cause.text
    else cause.text

/-- The image that a failure tells to be to blame. -/
def path? (e : PackError) : Option String :=
  match e with
  | unreadable path _ => if e.isReported then some path else none
  | _ => none

end PackError

/-- How a loader of images is used: it answers an image or says why there is none. -/
abbrev Loader := String → Except LoadError Raster

/-- Loads images in order, up to the first that cannot be loaded. -/
def loadAll (load : Loader) : List String → Except PackError (List (String × Raster))
  | [] => .ok []
  | path :: paths =>
    match load path with
    | .error cause => .error (.unreadable path cause)
    | .ok image => (loadAll load paths).map ((path, image) :: ·)

/-- An image as an item of a layout. -/
def itemOf (padding : Int) (path : String) (image : Raster) : Item :=
  { key := path, width := image.width + padding, height := image.height + padding }

/-- The size of the sheet on which items have found places. -/
def sheetSize (padding : Int) (items : List Item) : Nat × Nat :=
  let (width, height) := extent items
  ((width - padding).toNat, (height - padding).toNat)

/-- The images of a sheet, each at the place of its item. -/
def layersOf (images : List (String × Raster)) (items : List Item) : List Layer :=
  (images.zip items).map fun ((_, image), item) => ⟨image, item.x, item.y⟩

/-- A sheet for which places have been found, before it is drawn. -/
structure Plan where
  width : Nat
  height : Nat
  /-- The images of the sheet at their places. -/
  layers : List Layer
  placements : List (String × Box)

/-- The sheet that is planned. -/
def Plan.sheet (plan : Plan) : SpriteSheet where
  image := compose plan.width plan.height plan.layers
  placements := plan.placements

/-- Draws the sheet that is planned, and writes it. -/
def Plan.carryOut (plan : Plan) (library : Library) : Except PackError SpriteFile := do
  (library.canvas plan.width plan.height plan.layers).mapError .canvas
  let sheet := plan.sheet
  let content ← (library.encode sheet.image).mapError (.encode plan.width plan.height)
  return { sheet with content }

/-- The plan for images and the items for which places have been found. -/
def planOf (padding : Int) (images : List (String × Raster)) (items : List Item) : Plan :=
  let (width, height) := sheetSize padding items
  { width
    height
    layers := layersOf images items
    placements := (images.zip items).map fun ((path, image), item) =>
      (path, ⟨item.x, item.y, image.width, image.height⟩) }

/-- Packs the images at these paths.  `arrange` finds places for items. -/
def packWith (load : Loader) (padding : Int)
    (arrange : List Item → Except LayoutError (List Item)) (paths : List String)
    (library : Library) : Except PackError SpriteFile :=
  if paths = [] then .error .noImages
  else do
    let images ← loadAll load paths.eraseDups
    let items ← (arrange (images.map fun (path, image) => itemOf padding path image)).mapError .layout
    (planOf padding images items).carryOut library

/-- Packs the images at these paths by the algorithm of this name. -/
def packNamed (load : Loader) (padding : Int) (algorithm : String) (paths : List String)
    (library : Library := .oneWay) : Except PackError SpriteFile :=
  packWith load padding (arrangeNamed algorithm) paths library

/-- Packs the images at these paths by an algorithm. -/
def pack (load : Loader) (padding : Int) (algorithm : Algorithm) (paths : List String)
    (library : Library := .oneWay) : Except PackError SpriteFile :=
  packWith load padding (arrange algorithm) paths library

/-- The padding where none is asked for. -/
def defaultPadding : Int := 20

end Spriting.Sprite

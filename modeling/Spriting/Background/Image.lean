/-!
# Background images

What is known of the image that a rule shows: the reference to it, the density
that its name tells and the axis along which it repeats.
-/

namespace Spriting.Background

/-- The density variant of an image. -/
inductive PixelRatio where
  | single
  | double
deriving DecidableEq, Repr

def PixelRatio.toNat : PixelRatio → Nat
  | single => 1
  | double => 2

/-- How a background tiles. -/
inductive RepeatMode where
  | horizontal
  | vertical
  | once
deriving DecidableEq, Repr

namespace RepeatMode

/-- The keyword of a stylesheet for it. -/
def keyword : RepeatMode → String
  | horizontal => "repeat-x"
  | vertical => "repeat-y"
  | once => "no-repeat"

def ofKeyword? (keyword : String) : Option RepeatMode :=
  [horizontal, vertical, once].find? (·.keyword == keyword)

theorem ofKeyword?_keyword (mode : RepeatMode) : ofKeyword? mode.keyword = some mode := by
  cases mode <;> decide

end RepeatMode

/-- A local image named in a declaration of a rule.  Rule and declaration are
given by their ids, so that both can be found again. -/
structure Reference where
  url : String
  ruleId : Int
  declarationId : Int
  selectors : List String := []
deriving DecidableEq, Repr

/-- What the images of one sprite sheet have in common. -/
structure GroupKey where
  ratio : PixelRatio
  repeatMode : RepeatMode
deriving DecidableEq, Repr

/-- The references that share one sprite sheet. -/
structure Group where
  key : GroupKey
  members : List Reference
deriving DecidableEq, Repr

/-- Whether the image lies on another server, or on this one under any scheme. -/
def isRemote (url : String) : Bool :=
  "http".toList.isPrefixOf url.toList || "//".toList.isPrefixOf url.toList

/-- The density of the image, told by the end of its name alone. -/
def pixelRatio (url : String) : PixelRatio :=
  if "2x.png".toList.isSuffixOf url.toList then .double else .single

end Spriting.Background

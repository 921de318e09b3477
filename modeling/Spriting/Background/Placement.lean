import Spriting.Background.Image
import Spriting.Css.Node
import Spriting.Layout.Box

/-!
# Placing images of a sprite sheet

A rule shows its image out of a sprite sheet by moving the sheet: the declaration
of the image becomes a `background-position`, and a `background-size` tells how
large the sheet is.  One rule for all these selectors names the sheet itself and
keeps it out of sight; it has to stand before the others.
-/

namespace Spriting.Background

open Css Layout

/-- A sprite sheet as rules see it: its size and the box of every image in it, by
the path of the image. -/
structure SpriteMap where
  width : Int
  height : Int
  placements : List (String × Box)
deriving DecidableEq, Repr

/-- A length in the unit that users of the sheet scale. -/
def toUnit (n : Int) : String := if n = 0 then "0" else toString n ++ "pr"

/-- Two lengths. -/
def toUnits (x y : Int) : String := toUnit x ++ " " ++ toUnit y

/-- A reference into a sheet that has nothing under its id. -/
inductive Dangling where
  | rule (id : Int)
  | declaration (id ruleId : Int)
deriving DecidableEq, Repr

def Dangling.message : Dangling → String
  | rule id => "No rule with id " ++ toString id ++ " in stylesheet"
  | declaration id ruleId =>
    "No declaration with id " ++ toString id ++ " in rule " ++ toString ruleId

/-- What is noted about a member without a placement. -/
def skippedMessage (ref : Reference) : String :=
  "no placement for " ++ ref.url ++ ", rule " ++ toString ref.ruleId ++ " left as is"

/-- The declaration of the sheet's size. -/
def sizeDeclaration (sprite : SpriteMap) (id : Int) : Declaration :=
  { property := "background-size", value := toUnits sprite.width sprite.height, id }

/-- The declaration that moves the sheet so that `box` shows. -/
def positionDeclaration (box : Box) (id : Int) : Declaration :=
  { property := "background-position", value := toUnits (-box.x) (-box.y), id }

/-- What became of placing some members: the sheet, the members that had no
placement, and the selectors of those that had. -/
structure Placed where
  sheet : Stylesheet
  skipped : List Reference
  selectors : Except Dangling (List String)

/-- Places members one after another.  `resolve` gives the path of an image. -/
def placeMembers (sprite : SpriteMap) (resolve : String → String) (sheet : Stylesheet) :
    List Reference → Placed
  | [] => ⟨sheet, [], .ok []⟩
  | ref :: refs =>
    match sprite.placements.lookup (resolve ref.url) with
    | none =>
      let rest := placeMembers sprite resolve sheet refs
      { rest with skipped := ref :: rest.skipped }
    | some box =>
      match sheet.findRule ref.ruleId with
      | none => ⟨sheet, [], .error (.rule ref.ruleId)⟩
      | some r =>
        let (id, numbered) := sheet.newId
        let sized := { r with body := r.body ++ [.declaration (sizeDeclaration sprite id)] }
        let position := positionDeclaration box ref.declarationId
        match sized.replaceDeclaration ref.declarationId position with
        | none =>
          ⟨numbered.setRule ref.ruleId sized, [], .error (.declaration ref.declarationId r.id)⟩
        | some positioned =>
          let rest := placeMembers sprite resolve (numbered.setRule ref.ruleId positioned) refs
          { rest with selectors := rest.selectors.map (r.selectors ++ ·) }

/-- The rule that names the sheet at `url` for all of `selectors`, out of sight. -/
def sheetRule (url : String) (selectors : List String) : Rule :=
  { selectors
    body := [.declaration
      { property := "background", value := "url(" ++ url ++ ") no-repeat -9999px -9999px" }] }

/-- What became of placing a group. -/
structure GroupPlaced where
  sheet : Stylesheet
  skipped : List Reference
  /-- The rule that names the sprite sheet, if any selector shows an image of it. -/
  result : Except Dangling (Option Rule)

/-- Points every member of a group that has a placement at the sprite sheet at `url`. -/
def placeGroup (sheet : Stylesheet) (members : List Reference) (sprite : SpriteMap) (url : String)
    (resolve : String → String) : GroupPlaced :=
  let placed := placeMembers sprite resolve sheet members
  { sheet := placed.sheet
    skipped := placed.skipped
    result := placed.selectors.map fun selectors =>
      if selectors = [] then none else some (sheetRule url selectors) }

end Spriting.Background

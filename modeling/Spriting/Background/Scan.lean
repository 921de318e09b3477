import Spriting.Background.Image
import Spriting.Background.Url
import Spriting.Css.Node
import Spriting.Text.Case

/-!
# The image and the repeat mode of a rule

Both are looked for from the last declaration to the first, because of two
declarations of one property the later one is in effect.

* A declaration with one reference to an image decides on the image, and so does
  one that layers several: the rule is then left alone.  It is also left alone if
  the mark `#spriteignore` follows the path.
* A repeat mode is the first one that the declaration names.
-/

namespace Spriting.Background

open Text Css

/-- Whether a declaration sets one of `properties`, given in lower case. -/
def sets (properties : List String) (d : Declaration) : Bool :=
  properties.contains (lowered d.property)

def imageProperties : List String := ["background", "background-image"]

def repeatProperties : List String := ["background", "background-repeat"]

/-- The mark that keeps an image out of every sprite sheet. -/
def ignoreMark : List Char := "#spriteignore".toList

/-- What a declaration says about the image of its rule. -/
inductive Verdict where
  /-- Nothing: an earlier declaration may decide. -/
  | silent
  /-- The rule is left alone. -/
  | leave
  | image (url : String)
deriving DecidableEq, Repr

/-- What a declaration with this value says about the image. -/
def verdict (value : List Char) : Verdict :=
  match countFolded urlOpening value with
  | 0 => .silent
  | 1 =>
    match findUrl value with
    | none => .silent
    | some u =>
      if holdsFolded ignoreMark (u.tail ++ u.after) then .leave
      else .image (String.ofList (trim u.path))
  | _ => .leave

/-- The image on which the first of these declarations that says anything decides. -/
def decideImage : List Declaration → Option (Declaration × String)
  | [] => none
  | d :: ds =>
    match verdict d.value.toList with
    | .silent => decideImage ds
    | .leave => none
    | .image url => some (d, url)

/-- The image that a rule shows, if it may go into a sprite sheet. -/
def findImage (r : Rule) : Option Reference :=
  (decideImage (r.declarations.filter (sets imageProperties)).reverse).map fun (d, url) =>
    { url, ruleId := r.id, declarationId := d.id, selectors := r.selectors }

/-- The repeating axis at the front of a text. -/
def axisAt (cs : List Char) : Option RepeatMode :=
  if "repeat-x".toList.isPrefixOf cs then some .horizontal
  else if "repeat-y".toList.isPrefixOf cs then some .vertical
  else none

/-- The axis along which a rule's background repeats. -/
def repeatMode (r : Rule) : RepeatMode :=
  ((r.declarations.filter (sets repeatProperties)).reverse.findSome? fun d =>
    firstWithin axisAt d.value.toList).getD .once

end Spriting.Background

namespace Spriting.Css

open Text

/-- Whether a rule sets the property, in any case. -/
def Rule.hasProperty (r : Rule) (name : String) : Bool :=
  r.declarations.any fun d => lowered d.property == lowered name

end Spriting.Css

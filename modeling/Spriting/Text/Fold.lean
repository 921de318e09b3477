import Spriting.Text.Search

/-!
# Letters in either case

Searching for a fixed ASCII text whatever the case of its letters.  Besides the
ASCII pairs, the dotless and the dotted i stand for i, the long s for s and the
Kelvin sign for k.
-/

namespace Spriting.Text

/-- Whether `c` is a form of the small letter or other ASCII character `model`. -/
def foldsTo (model c : Char) : Bool :=
  c.toLower == model
    || (model == 'i' && (c == '\u0130' || c == '\u0131'))
    || (model == 's' && c == '\u017F')
    || (model == 'k' && c == '\u212A')

/-- What follows `model` at the front of a text. -/
def dropFolded? : List Char → List Char → Option (List Char)
  | [], cs => some cs
  | _ :: _, [] => none
  | m :: model, c :: cs => if foldsTo m c then dropFolded? model cs else none

/-- Whether `model` occurs in a text. -/
def holdsFolded (model cs : List Char) : Bool := (firstWithin (dropFolded? model) cs).isSome

/-- How many places of a text `model` starts at. -/
def countFolded (model : List Char) : List Char → Nat
  | [] => if (dropFolded? model []).isSome then 1 else 0
  | c :: cs => (if (dropFolded? model (c :: cs)).isSome then 1 else 0) + countFolded model cs

end Spriting.Text

/-!
# Searching a text
-/

namespace Spriting.Text

/-- The first result that `f` has at the text or further on in it. -/
def firstWithin (f : List Char → Option α) : List Char → Option α
  | [] => f []
  | c :: cs => (f (c :: cs)).or (firstWithin f cs)

/-- Whether `model` occurs in a text. -/
def holds (model : List Char) : List Char → Bool
  | [] => model.isPrefixOf []
  | c :: cs => model.isPrefixOf (c :: cs) || holds model cs

/-- The pieces of a text between the places of `mark`; there is always one. -/
def piecesAt (mark : Char) : List Char → List (List Char)
  | [] => [[]]
  | c :: cs =>
    if c = mark then [] :: piecesAt mark cs
    else match piecesAt mark cs with
      | [] => [[c]]
      | piece :: pieces => (c :: piece) :: pieces

end Spriting.Text

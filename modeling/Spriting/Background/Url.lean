import Spriting.Text.Blank
import Spriting.Text.Fold

/-!
# Image references in a value

A reference to an image is `url(`, blanks, the path of a png, jpg, jpeg or gif
file, blanks, a tail without closing bracket such as a query or a fragment, and
`)`.  Path and blanks may stand in quotes, and no letter's case matters.

A path holds no quotes and no round brackets.  It is the shortest that will do:
`url(a.png/b.png)` refers to `a.png`.
-/

namespace Spriting.Background

open Text

/-- A reference read in a value: its path, the tail inside the brackets and the
text after them. -/
structure UrlText where
  path : List Char
  tail : List Char
  after : List Char
deriving DecidableEq, Repr

/-- What opens a reference. -/
def urlOpening : List Char := ['u', 'r', 'l', '(']

/-- The endings of an image's name. -/
def imageExtensions : List (List Char) :=
  [['.', 'p', 'n', 'g'], ['.', 'j', 'p', 'e', 'g'], ['.', 'j', 'p', 'g'], ['.', 'g', 'i', 'f']]

def isQuoteMark (c : Char) : Bool := c == '"' || c == '\''

/-- Whether a path may hold `c`. -/
def isPathChar (c : Char) : Bool := !isQuoteMark c && c != '(' && c != ')'

/-- The tail up to the closing bracket, and what follows it. -/
def readTail : List Char → Option (List Char × List Char)
  | [] => none
  | c :: cs => if c = ')' then some ([], cs) else (readTail cs).map fun p => (c :: p.1, p.2)

/-- The end of a reference after the path: blanks, the closing quote if one is
open, and the tail. -/
def readEnd (mark : Option Char) (s : List Char) : Option (List Char × List Char) :=
  match mark with
  | none => readTail (trimStart s)
  | some mark =>
    match trimStart s with
    | [] => none
    | c :: cs => if c = mark then readTail cs else none

/-- A reference whose path ends with the image's ending at the front of `s`. -/
def readExtension (mark : Option Char) (s : List Char) : Option UrlText :=
  imageExtensions.findSome? fun extension =>
    (dropFolded? extension s).bind fun rest =>
      (readEnd mark rest).map fun p => ⟨s.take extension.length, p.1, p.2⟩

/-- The rest of a reference inside its path.  `started` says whether something
of the path has been read, for an ending alone is no path. -/
def readPath (mark : Option Char) (started : Bool) : List Char → Option UrlText
  | [] => none
  | c :: cs =>
    (if started then readExtension mark (c :: cs) else none).or <|
      if isPathChar c then
        (readPath mark true cs).map fun u => { u with path := c :: u.path }
      else none

/-- The rest of a reference after its opening.  Blanks are passed over, and
belong to the path only if no path starts behind them. -/
def readInside : List Char → Option UrlText
  | [] => none
  | c :: cs =>
    (if isBlank c then readInside cs
      else if isQuoteMark c then readPath (some c) false cs
      else none).or (readPath none false (c :: cs))

/-- The first reference in a value. -/
def findUrl (value : List Char) : Option UrlText :=
  firstWithin (fun s => (dropFolded? urlOpening s).bind readInside) value

end Spriting.Background

import Spriting.Text.Search

/-!
# Paths

A path is read as the slashes it starts with and the names between slashes.
Empty names and single dots say nothing and are left out; two leading slashes
are kept apart from one, and three or more count as one.

* `join`: a path that starts with a slash takes the place of what it is joined to;
* `collapse` takes every `..` together with the name before it.
-/

namespace Spriting.Files

open Text

structure Path where
  /-- How many slashes lead: none, one or two. -/
  slashes : Nat
  names : List String
deriving DecidableEq, Repr, Inhabited

/-- The names of a path as they stand, empty ones and dots included. -/
def rawNames (path : String) : List String := (piecesAt '/' path.toList).map String.ofList

namespace Path

def ofString (path : String) : Path :=
  let slashes := (path.toList.takeWhile (· == '/')).length
  { slashes := if slashes ≤ 2 then slashes else 1
    names := (rawNames path).filter fun name => name ≠ "" && name ≠ "." }

def toString (p : Path) : String :=
  if p.slashes = 0 ∧ p.names = [] then "."
  else String.ofList (List.replicate p.slashes '/') ++ "/".intercalate p.names

def isAbsolute (p : Path) : Bool := p.slashes ≠ 0

/-- The path `q`, taken from `p` unless it says where it starts. -/
def join (p q : Path) : Path := if q.isAbsolute then q else { p with names := p.names ++ q.names }

/-- The path without its last name. -/
def parent (p : Path) : Path := { p with names := p.names.dropLast }

/-- The last name. -/
def name (p : Path) : String := p.names.getLast?.getD ""

/-- Adds a name to collapsed names, which are given last first. -/
def collapseName (absolute : Bool) (names : List String) (name : String) : List String :=
  if name = ".." then
    match names with
    | [] => if absolute then [] else [name]
    | last :: before => if last = ".." then name :: names else before
  else name :: names

/-- The path without any `..` that could be taken back by the text alone. -/
def collapse (p : Path) : Path :=
  { p with names := (p.names.foldl (collapseName p.isAbsolute) []).reverse }

end Path

end Spriting.Files

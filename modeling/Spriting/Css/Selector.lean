import Spriting.Text.Blank

/-!
# Selector lists

A selector list is cut at the commas that stand outside quotes and outside
round and square brackets.  Blanks around a selector do not belong to it, and an
empty entry is no selector.

* `flatten_segments`: cutting removes the commas it cuts at and nothing else.
-/

namespace Spriting.Css

open Text

/-- Where in a selector list a character stands: how many brackets are open and
the mark of the string that is open, if any. -/
structure Nesting where
  depth : Nat := 0
  mark : Option Char := none
deriving DecidableEq, Repr

namespace Nesting

/-- Whether `c` separates two selectors here. -/
def separates (n : Nesting) (c : Char) : Bool := n.mark.isNone && n.depth == 0 && c == ','

/-- The place after `c`. -/
def advance (n : Nesting) (c : Char) : Nesting :=
  match n.mark with
  | some mark => if c = mark then { n with mark := none } else n
  | none =>
    if c = '"' || c = '\'' then { n with mark := some c }
    else if c = '(' || c = '[' then { n with depth := n.depth + 1 }
    else if c = ')' || c = ']' then { n with depth := n.depth - 1 }
    else n

end Nesting

/-- The first entry of the list and the entries after it, as they stand. -/
def segments (n : Nesting) : List Char → List Char × List (List Char)
  | [] => ([], [])
  | c :: cs =>
    if n.separates c then
      let rest := segments n cs
      ([], rest.1 :: rest.2)
    else
      let rest := segments (n.advance c) cs
      (c :: rest.1, rest.2)

theorem flatten_segments (n : Nesting) (cs : List Char) :
    [','].intercalate ((segments n cs).1 :: (segments n cs).2) = cs := by
  induction cs generalizing n with
  | nil => rfl
  | cons c cs ih =>
    rw [segments]
    split
    · rename_i h
      have hc : c = ',' := by simp_all [Nesting.separates]
      have := ih n
      simp only [List.intercalate] at this ⊢
      simp [List.intersperse, this, hc]
    · have := ih (n.advance c)
      simp only [List.intercalate] at this ⊢
      cases ht : (segments (n.advance c) cs).2 with
      | nil => simp_all
      | cons t ts => simp_all

/-- The selectors that a list writes. -/
def splitSelectors (raw : List Char) : List String :=
  let cut := segments {} raw
  (((cut.1 :: cut.2).map trim).filter (· ≠ [])).map String.ofList

end Spriting.Css

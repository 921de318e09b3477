import Spriting.Background.Scan

/-!
# Groups of images

The rules of a sheet whose images may go into sprite sheets, grouped by density
and repeat mode.  A rule that positions its background itself is left alone, and
so is a remote image.

* Groups come in the order of their first members, members in the order of the
  sheet.
-/

namespace Spriting.Background

open Css

/-- Whether a rule already places its background. -/
def isPositioned (r : Rule) : Bool := r.hasProperty "background-position"

/-- Whether a rule's image may go into a sprite sheet. -/
def isEligible (r : Rule) (ref : Reference) : Bool := !isRemote ref.url && !isPositioned r

/-- The image of a rule, if it may go into a sprite sheet, and the group it belongs to. -/
def candidate (r : Rule) : Option (GroupKey × Reference) :=
  ((findImage r).filter (isEligible r)).map fun ref => (⟨pixelRatio ref.url, repeatMode r⟩, ref)

/-- The groups of keyed references: a group for each key, in the order of the
first references. -/
def gather (refs : List (GroupKey × Reference)) : List Group :=
  (refs.map (·.1)).eraseDups.map fun key => ⟨key, (refs.filter (·.1 == key)).map (·.2)⟩

/-- The groups of a sheet. -/
def groups (sheet : Stylesheet) : List Group := gather (sheet.rules.filterMap candidate)

end Spriting.Background

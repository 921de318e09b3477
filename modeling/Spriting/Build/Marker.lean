import Spriting.Css.Node
import Spriting.Text.Blank
import Spriting.Text.Search

/-!
# The mark of a sheet that takes part

A sheet asks for sprite sheets with a top-level comment.  Only the first comment
that names the program counts.
-/

namespace Spriting.Build

open Text Css

/-- The name of the program, by which a comment is recognised. -/
def programName : String := "sprite-loader"

/-- The whole text of the comment, blanks apart. -/
def enableMark : String := "sprite-loader-enable"

/-- Whether a sheet asks for sprite sheets. -/
def isEnabled (sheet : Stylesheet) : Bool :=
  match sheet.comments.find? fun c => holds programName.toList c.text.toList with
  | some c => trimmed c.text == enableMark
  | none => false

end Spriting.Build

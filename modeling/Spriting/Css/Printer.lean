import Spriting.Css.Node
import Spriting.Text.Blank

/-!
# Writing stylesheets

The pretty form has a blank line between two nodes and a line for each selector
and each item of a body.  The compressed form has no comments and no white space
that can be spared.  Both keep the block of an at-rule as it is, but for the
blanks at its ends in the compressed form.
-/

namespace Spriting.Css

open Text

/-- The forms a stylesheet can be written in. -/
inductive Style where
  | pretty (indent : String)
  | compressed
deriving DecidableEq, Repr

/-- An opening brace. -/
def openBrace : String := "\x7b"

/-- A closing brace. -/
def closeBrace : String := "\x7d"

def Comment.render (c : Comment) : String := "/*" ++ c.text ++ "*/"

/-- The name of an at-rule and its prelude, if it has one. -/
def AtRule.head (a : AtRule) : String :=
  if a.prelude = "" then "@" ++ a.name else "@" ++ a.name ++ " " ++ a.prelude

namespace BodyItem

def renderPretty : BodyItem → String
  | declaration d => d.property ++ ": " ++ d.value ++ ";"
  | comment c => c.render

end BodyItem

def Declaration.renderCompressed (d : Declaration) : String := d.property ++ ":" ++ d.value

namespace Rule

def renderPretty (indent : String) (r : Rule) : String :=
  "\n".intercalate
    ((",\n".intercalate r.selectors ++ " " ++ openBrace)
      :: r.body.map (indent ++ ·.renderPretty) ++ [closeBrace])

def renderCompressed (r : Rule) : String :=
  ",".intercalate r.selectors ++ openBrace
    ++ ";".intercalate (r.declarations.map Declaration.renderCompressed) ++ closeBrace

end Rule

namespace AtRule

def renderPretty (a : AtRule) : String :=
  match a.block with
  | none => a.head ++ ";"
  | some block => a.head ++ " " ++ openBrace ++ block ++ closeBrace

def renderCompressed (a : AtRule) : String :=
  match a.block with
  | none => a.head ++ ";"
  | some block => a.head ++ openBrace ++ trimmed block ++ closeBrace

end AtRule

namespace Node

def renderPretty (indent : String) : Node → String
  | rule r => r.renderPretty indent
  | comment c => c.render
  | atRule a => a.renderPretty

def renderCompressed : Node → String
  | rule r => r.renderCompressed
  | comment _ => ""
  | atRule a => a.renderCompressed

end Node

namespace Stylesheet

def renderPretty (indent : String) (sheet : Stylesheet) : String :=
  "\n\n".intercalate (sheet.nodes.map (·.renderPretty indent))

def renderCompressed (sheet : Stylesheet) : String :=
  String.join (sheet.nodes.map (·.renderCompressed))

/-- The text of a stylesheet. -/
def render (sheet : Stylesheet) : Style → String
  | .pretty indent => sheet.renderPretty indent
  | .compressed => sheet.renderCompressed

end Stylesheet

end Spriting.Css

import Spriting.Text.Quoted

/-!
# Errors in a stylesheet

A stylesheet is refused at the first lexeme that cannot continue it, at a
character that starts no lexeme, or because it ends too early.
-/

namespace Spriting.Css

/-- A place in a text; both counts start at 1, and only a line feed ends a line. -/
structure Position where
  line : Nat
  column : Nat
deriving DecidableEq, Repr

/-- The place right after `before`. -/
def Position.after (before : List Char) : Position :=
  { line := before.count '\n' + 1
    column := (before.reverse.takeWhile (· ≠ '\n')).length + 1 }

/-- What cannot continue a stylesheet. -/
inductive Unexpected where
  | lexeme (text : List Char)
  | character (c : Char)
  | ending
deriving DecidableEq, Repr

structure ParseError where
  cause : Unexpected
  /-- Where the lexeme or the character stands. -/
  position : Option Position
deriving DecidableEq, Repr

def Unexpected.message : Unexpected → String
  | lexeme text => "Unexpected " ++ Text.quoted (String.ofList text)
  | character c => "Unexpected character " ++ Text.quoted (String.singleton c)
  | ending => "Unexpected end of stylesheet"

def ParseError.message (e : ParseError) : String :=
  match e.position with
  | some p => e.cause.message ++ s!" at line {p.line}, column {p.column}"
  | none => e.cause.message

end Spriting.Css

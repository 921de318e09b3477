import Spriting.Text.Blank
import Spriting.Text.Digit
import Spriting.Text.Quoted

/-!
# Written integers

An integer is an optional sign and decimal digits of any script; one underscore
may stand between two digits, and blanks around it do not count.  The
information separators U+001C to U+001F are not among those blanks.

A numeral has at most `maxDigits` digits, zeros in front included.  One that has
more is refused for that, whatever follows it.
-/

namespace Spriting.Text

/-- How many digits a numeral may have. -/
def maxDigits : Nat := 4300

/-- Why a text is read as no integer. -/
inductive NumeralError where
  | malformed
  | tooLong (digits : Nat)
deriving DecidableEq, Repr

/-- What is said about `text`, of which no more than 200 characters are shown. -/
def NumeralError.message (text : String) : NumeralError → String
  | malformed =>
    "invalid literal for int() with base 10: " ++ String.ofList ((quoted text).toList.take 200)
  | tooLong digits =>
    "Exceeds the limit (" ++ toString maxDigits
      ++ " digits) for integer string conversion: value has " ++ toString digits
      ++ " digits; use sys.set_int_max_str_digits() to increase the limit"

/-- Digits, with single underscores allowed between them. -/
def digitList? : List Char → Option (List Nat)
  | [] => none
  | [c] => (digitValue? c).map fun d => [d]
  | c :: '_' :: cs => (digitValue? c).bind fun d => (digitList? cs).map (d :: ·)
  | c :: cs => (digitValue? c).bind fun d => (digitList? cs).map (d :: ·)

/-- The number whose decimal digits are `ds`, if they are not too many. -/
def readDigits (ds : List Nat) : Except NumeralError Nat :=
  if ds.length ≤ maxDigits then .ok (ofDigits ds) else .error (.tooLong ds.length)

/-- Whether `c` may stand around a number. -/
def isNumberGap (c : Char) : Bool := isBlank c && !(0x1C ≤ c.toNat && c.toNat ≤ 0x1F)

/-- Whether `c` may stand in a numeral behind its sign. -/
def isNumeralChar (c : Char) : Bool := isDigit c || c == '_'

/-- Reads a numeral without sign, up to the gap behind it. -/
def readNumeral (cs : List Char) : Except NumeralError Nat :=
  match digitList? (cs.takeWhile isNumeralChar) with
  | none => .error .malformed
  | some ds => do
    let n ← readDigits ds
    if (cs.dropWhile isNumeralChar).all isNumberGap then return n else throw .malformed

/-- The integer that a text writes. -/
def readInt (text : String) : Except NumeralError Int :=
  match text.toList.dropWhile isNumberGap with
  | '-' :: cs => (readNumeral cs).map fun n => -(n : Int)
  | '+' :: cs => (readNumeral cs).map fun n => (n : Int)
  | cs => (readNumeral cs).map fun n => (n : Int)

end Spriting.Text

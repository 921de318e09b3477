import Spriting.Text.Integer
import Spriting.Text.Quoted

/-!
# Values of options

An option comes with a value of any kind.  What a number or a flag is made of it
is decided here.
-/

namespace Spriting.Config

open Text

inductive Value where
  | null
  | boolean (b : Bool)
  | integer (n : Int)
  /-- `digits` times ten to the minus `places`, with a sign of its own also for
  zero. -/
  | decimal (negative : Bool) (digits places : Nat)
  /-- A number beyond the largest one that can be held. -/
  | infinite (negative : Bool)
  /-- What stands for a number where there is none. -/
  | undefined
  | text (s : String)
  | list (items : List Value)
  | table (fields : List (String × Value))
deriving Inhabited

/-- Why a value is no number. -/
inductive ValueError where
  | numeral (text : String) (cause : NumeralError)
  | wrongKind (kind : String)
  | infinite
  | undefined
deriving DecidableEq, Repr

def ValueError.message : ValueError → String
  | numeral text cause => cause.message text
  | wrongKind kind =>
    "int() argument must be a string, a bytes-like object or a real number, not " ++ quoted kind
  | infinite => "cannot convert float infinity to integer"
  | undefined => "cannot convert float NaN to integer"

/-- A quotient rounded to the nearest integer, a half to the even one. -/
def roundQuotient (n d : Nat) : Nat :=
  let q := n / d
  let twice := 2 * (n % d)
  if twice < d then q
  else if d < twice then q + 1
  else q + q % 2

/-- The integer part of the number with 53 binary digits nearest to `n / d`. -/
def wholePart (n d : Nat) : Nat :=
  let whole := n / d
  -- The last of the 53 digits stands for 2 to the `e`.
  let e : Int := if whole = 0 then -53 else (Nat.log2 whole : Int) - 52
  if 0 ≤ e then roundQuotient n (d <<< e.toNat) <<< e.toNat
  else roundQuotient (n <<< (-e).toNat) d >>> (-e).toNat

namespace Value

/-- A number with a point.  Its 53 binary digits come with an exponent below 1024,
so that a larger number is infinite; one that is no more than half of the
smallest number, 2 to the -1074, is zero. -/
def ofDecimal (negative : Bool) (digits places : Nat) : Value :=
  if 1 <<< 1024 ≤ wholePart digits (Nat.pow 10 places) then .infinite negative
  else if digits <<< 1075 ≤ Nat.pow 10 places then .decimal negative 0 1
  else .decimal negative digits places

/-- The name of the kind of a value. -/
def kind : Value → String
  | null => "NoneType"
  | boolean _ => "bool"
  | integer _ => "int"
  | decimal _ _ _ | infinite _ | undefined => "float"
  | text _ => "str"
  | list _ => "list"
  | table _ => "dict"

/-- Whether a value counts as set. -/
def isTrue : Value → Bool
  | null => false
  | boolean b => b
  | integer n => n ≠ 0
  | decimal _ n _ => n ≠ 0
  | infinite _ | undefined => true
  | text s => s ≠ ""
  | list items => !items.isEmpty
  | table fields => !fields.isEmpty

/-- The integer that a value stands for; a decimal number loses its places. -/
def toInt : Value → Except ValueError Int
  | boolean b => .ok (if b then 1 else 0)
  | integer n => .ok n
  | decimal negative n places =>
    let whole : Int := wholePart n (Nat.pow 10 places)
    .ok (if negative then -whole else whole)
  | infinite _ => .error .infinite
  | undefined => .error .undefined
  | text s => (readInt s).mapError (.numeral s)
  | value => .error (.wrongKind value.kind)

end Value

end Spriting.Config

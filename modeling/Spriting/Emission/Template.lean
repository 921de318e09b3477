import Spriting.Text.Integer

/-!
# Names that carry a digest

In a name, `[hash]` stands for the digest of the contents and `[hash:N]` for its
first `N` digits, with `N` written in decimal digits of any script.  Everything
else stands for itself.

A count is a numeral, so one with too many digits is refused.
-/

namespace Spriting.Emission

open Text

/-- A part of a template. -/
inductive Part where
  | char (c : Char)
  /-- The digest, or as many digits of it as a numeral says. -/
  | digest (count : Option (List Nat))
deriving DecidableEq, Repr

/-- What follows `[hash` in a place for the digest, up to and with the bracket. -/
def readCount (cs : List Char) : Option (Option (List Nat) × List Char) :=
  match cs with
  | ']' :: rest => some (none, rest)
  | ':' :: rest =>
    match rest.takeWhile isDigit, rest.dropWhile isDigit with
    | d :: digits, ']' :: rest => some (some ((d :: digits).filterMap digitValue?), rest)
    | _, _ => none
  | _ => none

/-- A place for the digest at the front of a text. -/
def readPlace (cs : List Char) : Option (Option (List Nat) × List Char) :=
  match cs with
  | '[' :: 'h' :: 'a' :: 's' :: 'h' :: rest => readCount rest
  | _ => none

theorem readCount_length {cs rest : List Char} {n : Option (List Nat)}
    (h : readCount cs = some (n, rest)) : rest.length < cs.length := by
  unfold readCount at h
  split at h
  · cases h
    simp
  · rename_i after
    split at h
    · rename_i left hl
      cases h
      have : (after.dropWhile isDigit).length ≤ after.length :=
        (List.dropWhile_suffix isDigit).length_le
      rw [hl] at this
      simp only [List.length_cons] at this ⊢
      omega
    · simp at h
  · simp at h

theorem readPlace_length {cs rest : List Char} {n : Option (List Nat)}
    (h : readPlace cs = some (n, rest)) : rest.length < cs.length := by
  unfold readPlace at h
  split at h
  · have := readCount_length h
    simp only [List.length_cons]
    omega
  · simp at h

/-- The parts of a template. -/
def parts (cs : List Char) : List Part :=
  match _h : readPlace cs with
  | some (n, rest) => .digest n :: parts rest
  | none =>
    match cs with
    | [] => []
    | c :: cs => .char c :: parts cs
termination_by cs.length
decreasing_by
  · exact readPlace_length _h
  · simp

/-- What a part becomes under a digest. -/
def Part.expand (digest : List Char) : Part → Except NumeralError (List Char)
  | char c => .ok [c]
  | .digest none => .ok digest
  | .digest (some ds) => (readDigits ds).map fun n => digest.take n

/-- A template with a digest in its places. -/
def expand (template digest : String) : Except NumeralError String :=
  ((parts template.toList).mapM (Part.expand digest.toList)).map fun pieces =>
    String.ofList pieces.flatten

/-- The template where none is asked for. -/
def defaultTemplate : String := "sprite.[hash:7].png"

end Spriting.Emission

/-!
# Control sequences

A control sequence tells a terminal how to show what follows.  It is an escape
character and an opening bracket, parameters, intermediates and one final
character; those three classes are ASCII and have no character in common.
-/

namespace Spriting.Text

/-- The character that opens a control sequence. -/
def escapeChar : Char := '\x1b'

/-- Whether `c` is a digit, a colon, a semicolon or one of `<=>?`. -/
def isParameter (c : Char) : Bool := '0' ≤ c && c ≤ '?'

/-- Whether `c` is a space or a mark of punctuation up to the slash. -/
def isIntermediate (c : Char) : Bool := ' ' ≤ c && c ≤ '/'

/-- Whether `c` is at `@` or behind it. -/
def isFinal (c : Char) : Bool := '@' ≤ c && c ≤ '~'

/-- What follows the control sequence at the front of a text. -/
def afterControl? : List Char → Option (List Char)
  | c :: '[' :: cs =>
    if c = escapeChar then
      match (cs.dropWhile isParameter).dropWhile isIntermediate with
      | last :: rest => if isFinal last then some rest else none
      | [] => none
    else none
  | _ => none

theorem afterControl?_length {cs rest : List Char} (h : afterControl? cs = some rest) :
    rest.length < cs.length := by
  unfold afterControl? at h
  split at h
  · rename_i c after
    split at h
    · split at h
      · rename_i last left hl
        split at h
        · cases h
          have h₁ : ((after.dropWhile isParameter).dropWhile isIntermediate).length ≤ _ :=
            (List.dropWhile_suffix isIntermediate).length_le
          have h₂ : (after.dropWhile isParameter).length ≤ _ :=
            (List.dropWhile_suffix isParameter).length_le
          rw [hl] at h₁
          simp only [List.length_cons] at h₁ ⊢
          omega
        · simp at h
      · simp at h
    · simp at h
  · simp at h

/-- A text without its control sequences. -/
def withoutControls (cs : List Char) : List Char :=
  match _h : afterControl? cs with
  | some rest => withoutControls rest
  | none =>
    match cs with
    | [] => []
    | c :: cs => c :: withoutControls cs
termination_by cs.length
decreasing_by
  · exact afterControl?_length _h
  · simp

end Spriting.Text

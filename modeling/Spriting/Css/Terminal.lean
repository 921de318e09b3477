import Spriting.Css.Reader
import Spriting.Text.Blank
import Spriting.Text.Word

/-!
# Lexemes of a stylesheet

The classes of lexemes and the reader of each.  Selectors, values, preludes and
the text of a block step over quoted strings, so those may hold braces and
semicolons; values and preludes also step over round brackets, selectors and
preludes over comments.

Each reader takes the longest piece it can, and where two readers are tried at
one place in a parse their first characters differ, so no order among them
matters there.
-/

namespace Spriting.Css

open Text

/-- The end of a quoted string after its opening `mark`.  A backslash takes the
character after it along, which may not be a line feed. -/
def closeQuote (mark : Char) : List Char → Option (List Char × List Char)
  | [] => none
  | c :: cs =>
    if c = mark then some ([c], cs)
    else if c = '\\' then
      match cs with
      | [] => none
      | d :: ds =>
        if d = '\n' then none
        else (closeQuote mark ds).map fun p => (c :: d :: p.1, p.2)
    else (closeQuote mark cs).map fun p => (c :: p.1, p.2)

/-- Everything up to and with the first `*/`. -/
def closeComment : List Char → Option (List Char × List Char)
  | '*' :: '/' :: cs => some (['*', '/'], cs)
  | c :: cs => (closeComment cs).map fun p => (c :: p.1, p.2)
  | [] => none

/-- Everything up to and with the first closing bracket. -/
def closeGroup : List Char → Option (List Char × List Char)
  | [] => none
  | c :: cs =>
    if c = ')' then some ([c], cs) else (closeGroup cs).map fun p => (c :: p.1, p.2)

theorem closeQuote_append {mark : Char} {s l r : List Char} (h : closeQuote mark s = some (l, r)) :
    s = l ++ r := by
  fun_induction closeQuote mark s generalizing l r with
  | case1 => simp at h
  | case2 => cases h; rfl
  | case3 => simp at h
  | case4 => simp at h
  | case5 d ds _ _ ih =>
    obtain ⟨p, hp, he⟩ := Option.map_eq_some_iff.1 h
    cases he
    simp [ih hp]
  | case6 c cs hc hb ih =>
    obtain ⟨p, hp, he⟩ := Option.map_eq_some_iff.1 h
    cases he
    simp [ih hp]

theorem closeComment_append {s l r : List Char} (h : closeComment s = some (l, r)) :
    s = l ++ r := by
  fun_induction closeComment s generalizing l r with
  | case1 cs => cases h; rfl
  | case2 c cs _ ih =>
    obtain ⟨p, hp, he⟩ := Option.map_eq_some_iff.1 h
    cases he
    simp [ih hp]
  | case3 => simp at h

theorem closeGroup_append {s l r : List Char} (h : closeGroup s = some (l, r)) : s = l ++ r := by
  fun_induction closeGroup s generalizing l r with
  | case1 => simp at h
  | case2 => cases h; rfl
  | case3 c cs hc ih =>
    obtain ⟨p, hp, he⟩ := Option.map_eq_some_iff.1 h
    cases he
    simp [ih hp]

namespace Reader

/-- A string between two quotes `mark`. -/
def quotedBy (mark : Char) : Reader where
  read
    | [] => none
    | c :: cs => if c = mark then (closeQuote mark cs).map fun p => (c :: p.1, p.2) else none
  splits {s l r} h := by
    cases s with
    | nil => simp at h
    | cons c cs =>
      simp only [Option.ite_none_right_eq_some, Option.map_eq_some_iff] at h
      obtain ⟨_, p, hp, he⟩ := h
      cases he
      simp [closeQuote_append hp]

/-- A string in double or single quotes. -/
def string : Reader := (quotedBy '"').orElse (quotedBy '\'')

/-- A comment with its delimiters. -/
def comment : Reader where
  read
    | '/' :: '*' :: cs => (closeComment cs).map fun p => ('/' :: '*' :: p.1, p.2)
    | _ => none
  splits {s l r} h := by
    split at h
    · obtain ⟨p, hp, he⟩ := Option.map_eq_some_iff.1 h
      cases he
      simp [closeComment_append hp]
    · simp at h

/-- Round brackets and what stands between them, up to the first closing one. -/
def group : Reader where
  read
    | '(' :: cs => (closeGroup cs).map fun p => ('(' :: p.1, p.2)
    | _ => none
  splits {s l r} h := by
    split at h
    · obtain ⟨p, hp, he⟩ := Option.map_eq_some_iff.1 h
      cases he
      simp [closeGroup_append hp]
    · simp at h

/-- A slash that opens no comment. -/
def slash : Reader where
  read
    | '/' :: '*' :: _ => none
    | '/' :: cs => some (['/'], cs)
    | _ => none
  splits {s l r} h := by
    split at h
    · simp at h
    · cases h
      simp
    · simp at h

/-- A character that may continue a name. -/
def nameChar : Reader := char fun c => c == '-' || isWord c

/-- A character outside `stops`. -/
def outside (stops : List Char) : Reader := char fun c => !stops.contains c

/-- A character outside `stops` that is no blank. -/
def inkOutside (stops : List Char) : Reader := char fun c => !isBlank c && !stops.contains c

end Reader

/-- The characters that end a run of plain text in a selector. -/
def selectorStops : List Char := ['\x7b', '\x7d', ';', '/', '"', '\'']

/-- The characters that end a run of plain text in a value or a prelude. -/
def valueStops : List Char := [';', '\x7b', '\x7d', '"', '\'', '(']

/-- The characters that end a run of plain text in a block. -/
def blockStops : List Char := ['\x7b', '\x7d', '"', '\'']

/-- The classes of lexemes. -/
inductive Terminal where
  | selector
  | comment
  | atKeyword
  | property
  | value
  | prelude
  | blockText
  | colon
  | semicolon
  | openBrace
  | closeBrace
deriving DecidableEq, Repr

namespace Terminal

open Reader in
def reader : Terminal → Reader
  | selector =>
    (string.orElse (inkOutside ('@' :: selectorStops))).followedBy
      (((string.orElse Reader.comment).orElse slash).orElse (outside selectorStops))
  | comment => Reader.comment
  | atKeyword => (char (· == '@')).andThen nameChar.oneOrMore
  | property => (char fun c => c.isAlpha || ['-', '_', '*', '$'].contains c).followedBy nameChar
  | value =>
    ((string.orElse group).orElse (inkOutside valueStops)).followedBy
      ((string.orElse group).orElse (outside valueStops))
  | prelude =>
    ((string.orElse group).orElse (inkOutside valueStops)).followedBy
      (((Reader.comment.orElse string).orElse group).orElse (outside valueStops))
  | blockText =>
    (string.orElse (inkOutside blockStops)).followedBy (string.orElse (outside blockStops))
  | colon => char (· == ':')
  | semicolon => char (· == ';')
  | openBrace => char (· == '\x7b')
  | closeBrace => char (· == '\x7d')

end Terminal

end Spriting.Css

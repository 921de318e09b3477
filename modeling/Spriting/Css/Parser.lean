import Spriting.Css.Error
import Spriting.Css.Node
import Spriting.Css.Selector
import Spriting.Css.Terminal

/-!
# Reading stylesheets

Which classes of lexemes may come next depends on what is open: a `Pending`
names it, together with what has been read of the node that is not finished.
Reading is one loop, `parseFrom`: skip a gap, read a lexeme that may come next,
`shift` it, and hand on the node it finishes, if any.

The block of an at-rule is only checked for balanced braces and kept as it is
written, gaps included.
-/

namespace Spriting.Css

open Text

/-- What is open after the last finished node.  Items and pieces that have been
read come last first. -/
inductive Pending where
  | nothing
  | selector (text : List Char)
  | body (selector : List Char) (items : List BodyItem)
  | property (selector : List Char) (items : List BodyItem) (name : List Char)
  | colon (selector : List Char) (items : List BodyItem) (name : List Char)
  | value (selector : List Char) (items : List BodyItem) (name text : List Char)
  | keyword (name : List Char)
  | prelude (name text : List Char)
  /-- `depth` counts the braces that are open inside the block. -/
  | block (name prelude : List Char) (depth : Nat) (pieces : List (List Char))
deriving DecidableEq, Repr

/-- The declaration that a property and a value write. -/
def declarationOf (name value : List Char) : BodyItem :=
  .declaration { property := String.ofList (trim name), value := String.ofList (trim value) }

/-- The comment that a lexeme writes. -/
def commentOf (lexeme : List Char) : Comment :=
  { text := String.ofList (lexeme.drop 2).dropLast.dropLast }

/-- The rule that a selector list and the items of a body, last first, make. -/
def ruleOf (selector : List Char) (items : List BodyItem) : Node :=
  .rule { selectors := splitSelectors selector, body := items.reverse }

/-- The text that pieces, last first, make. -/
def joined (pieces : List (List Char)) : List Char := pieces.reverse.flatten

/-- The at-rule with this name, prelude and block. -/
def atRuleOf (name prelude : List Char) (block : Option (List Char)) : Node :=
  .atRule
    { name := String.ofList name
      prelude := String.ofList (trim prelude)
      block := block.map String.ofList }

namespace Pending

/-- The classes of lexemes that may come next. -/
def expected : Pending → List Terminal
  | nothing => [.selector, .comment, .atKeyword]
  | selector _ => [.openBrace]
  | body _ _ => [.property, .comment, .semicolon, .closeBrace]
  | property _ _ _ => [.colon]
  | colon _ _ _ => [.value, .semicolon, .closeBrace]
  | value _ _ _ _ => [.semicolon, .closeBrace]
  | keyword _ => [.prelude, .openBrace, .semicolon]
  | prelude _ _ => [.openBrace, .semicolon]
  | block _ _ _ _ => [.blockText, .openBrace, .closeBrace]

/-- What a lexeme makes of what is open, and the node that it finishes. -/
def shift (lexeme : List Char) : Pending → Terminal → Option (Option Node × Pending)
  | nothing, .selector => some (none, selector lexeme)
  | nothing, .comment => some (some (.comment (commentOf lexeme)), nothing)
  | nothing, .atKeyword => some (none, keyword (lexeme.drop 1))
  | selector s, .openBrace => some (none, body s [])
  | body s items, .property => some (none, property s items lexeme)
  | body s items, .comment => some (none, body s (.comment (commentOf lexeme) :: items))
  | body s items, .semicolon => some (none, body s items)
  | body s items, .closeBrace => some (some (ruleOf s items), nothing)
  | property s items n, .colon => some (none, colon s items n)
  | colon s items n, .value => some (none, value s items n lexeme)
  | colon s items n, .semicolon => some (none, body s (declarationOf n [] :: items))
  | colon s items n, .closeBrace => some (some (ruleOf s (declarationOf n [] :: items)), nothing)
  | value s items n v, .semicolon => some (none, body s (declarationOf n v :: items))
  | value s items n v, .closeBrace => some (some (ruleOf s (declarationOf n v :: items)), nothing)
  | keyword n, .prelude => some (none, prelude n lexeme)
  | keyword n, .openBrace => some (none, block n [] 0 [])
  | keyword n, .semicolon => some (some (atRuleOf n [] none), nothing)
  | prelude n p, .openBrace => some (none, block n p 0 [])
  | prelude n p, .semicolon => some (some (atRuleOf n p none), nothing)
  | block n p depth pieces, .blockText => some (none, block n p depth (lexeme :: pieces))
  | block n p depth pieces, .openBrace => some (none, block n p (depth + 1) (lexeme :: pieces))
  | block n p 0 pieces, .closeBrace => some (some (atRuleOf n p (some (joined pieces))), nothing)
  | block n p (depth + 1) pieces, .closeBrace => some (none, block n p depth (lexeme :: pieces))
  | _, _ => none

theorem shift_isSome {lexeme : List Char} {p : Pending} {t : Terminal} :
    (p.shift lexeme t).isSome = true ↔ t ∈ p.expected := by
  cases p <;> cases t <;> simp [shift, expected]
  rename_i n p depth pieces
  cases depth <;> rfl

/-- What a gap makes of what is open: it belongs to the text of a block and to
nothing else. -/
def skip (gap : List Char) : Pending → Pending
  | block n p depth pieces => block n p depth (gap :: pieces)
  | p => p

end Pending

/-- The gap between two lexemes. -/
def gap : Reader := (Reader.char fun c => [' ', '\t', '\x0c', '\r', '\n'].contains c).oneOrMore

/-- The first of these classes with a lexeme at the front, the lexeme and the rest. -/
def firstLexeme (ts : List Terminal) (s : List Char) : Option (Terminal × List Char × List Char) :=
  ts.findSome? fun t => (t.reader.read s).map fun p => (t, p)

theorem firstLexeme_eq_some {ts : List Terminal} {s l r : List Char} {t : Terminal}
    (h : firstLexeme ts s = some (t, l, r)) : t ∈ ts ∧ t.reader.read s = some (l, r) := by
  obtain ⟨t', ht, h'⟩ := List.exists_of_findSome?_eq_some h
  obtain ⟨p, hp, he⟩ := Option.map_eq_some_iff.1 h'
  cases he
  exact ⟨ht, hp⟩

/-- The order in which the classes are tried to name what was found instead. -/
def Terminal.byPrecedence : List Terminal :=
  [prelude, selector, value, blockText, property, comment, atKeyword, colon, openBrace, closeBrace,
    semicolon]

/-- What stands at the front of an input that cannot go on. -/
def unexpected (s : List Char) : Unexpected :=
  match firstLexeme Terminal.byPrecedence s with
  | some (_, l, _) => .lexeme l
  | none => s.head?.elim .ending .character

/-- Reads nodes to the end of the input.  An error comes with the input that was
left at it. -/
def parseFrom (p : Pending) (s : List Char) : Except (Unexpected × List Char) (List Node) :=
  if s = [] then
    if p = .nothing then .ok [] else .error (.ending, [])
  else
    match _hg : gap.read s with
    | some (g, r) => parseFrom (p.skip g) r
    | none =>
      match _hl : firstLexeme p.expected s with
      | none => .error (unexpected s, s)
      | some (t, l, r) =>
        match p.shift l t with
        | none => .error (unexpected s, s)
        | some (node?, p') => (parseFrom p' r).map (node?.toList ++ ·)
termination_by s.length
decreasing_by
  · exact gap.length_rest_lt _hg
  · exact t.reader.length_rest_lt (firstLexeme_eq_some _hl).2

/-- The nodes that a source writes, still without ids. -/
def parseNodes (source : List Char) : Except ParseError (List Node) :=
  (parseFrom .nothing source).mapError fun (cause, left) =>
    { cause
      position :=
        if cause = .ending then none
        else some (.after (source.take (source.length - left.length))) }

/-- The stylesheet that a source writes. -/
def parse (source : String) : Except ParseError Stylesheet :=
  (parseNodes source.toList).map .ofNodes

/-- To evaluate `parse` on a literal: `String.toList_ofList` gives its characters at once, where
unfolding decodes the literal once for each of them. -/
theorem parse_of_toList {source : String} {chars : List Char} {sheet : Stylesheet}
    (hsource : source.toList = chars) (h : (parseNodes chars).map .ofNodes = .ok sheet) :
    parse source = .ok sheet := by
  rw [parse, hsource, h]

end Spriting.Css

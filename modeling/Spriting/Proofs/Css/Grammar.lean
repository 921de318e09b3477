import Spriting.Proofs.Css.Pattern

/-!
# The grammar of stylesheets

A sheet is a sentence of a grammar over the classes of lexemes.  A derivation is a tree with a
type for each production, and its leaves are the lexemes that it derives.  A source is cut into
tokens from the front; at each place only a class that can go on a sentence counts.

* `tokensOf`, `nodesOf`: the sentence that derivations derive and the nodes they stand for;
* `Viable`: the beginnings of sentences;
* `Tokenises`: the ways to cut a source into tokens.
-/

namespace Spriting.Css

open Text

/-- A lexeme where it stands: its text and what follows it in the source. -/
structure Lexeme where
  text : List Char
  rest : List Char

structure Token where
  kind : Terminal
  lexeme : Lexeme

/-- The text of the source strictly between a lexeme and a later one. -/
def Lexeme.upTo (a b : Lexeme) : List Char :=
  a.rest.take (a.rest.length - (b.text ++ b.rest).length)

/-! ## Declarations and rules -/

/-- `declaration: PROPERTY ":" VALUE?` -/
structure DeclarationTree where
  property : Lexeme
  colon : Lexeme
  value : Option Lexeme

/-- `_body_item: body_comment | ";" | declaration ";"` -/
inductive BodyItemTree where
  | comment (comment : Lexeme)
  | semicolon (semicolon : Lexeme)
  | declaration (declaration : DeclarationTree) (semicolon : Lexeme)

/-- `rule: SELECTOR LBRACE _rule_body RBRACE`, where `_rule_body: _body_item* declaration?` -/
structure RuleTree where
  selector : Lexeme
  opening : Lexeme
  items : List BodyItemTree
  last : Option DeclarationTree
  closing : Lexeme

namespace DeclarationTree

def tokens (d : DeclarationTree) : List Token :=
  ⟨.property, d.property⟩ :: ⟨.colon, d.colon⟩ :: (d.value.map (Token.mk .value)).toList

def item (d : DeclarationTree) : BodyItem :=
  .declaration
    { property := String.ofList (trim d.property.text)
      value := String.ofList (trim (d.value.elim [] Lexeme.text)) }

end DeclarationTree

namespace BodyItemTree

def tokens : BodyItemTree → List Token
  | comment c => [⟨.comment, c⟩]
  | semicolon m => [⟨.semicolon, m⟩]
  | declaration d m => d.tokens ++ [⟨.semicolon, m⟩]

/-- A semicolon that ends no declaration leaves no item. -/
def items : BodyItemTree → List BodyItem
  | comment c => [.comment { text := String.ofList (c.text.drop 2).dropLast.dropLast }]
  | semicolon _ => []
  | declaration d _ => [d.item]

end BodyItemTree

namespace RuleTree

def tokens (r : RuleTree) : List Token :=
  ⟨.selector, r.selector⟩ :: ⟨.openBrace, r.opening⟩ ::
    (r.items.flatMap BodyItemTree.tokens ++ r.last.elim [] DeclarationTree.tokens ++
      [⟨.closeBrace, r.closing⟩])

def node (r : RuleTree) : Node :=
  .rule
    { selectors := splitSelectors r.selector.text
      body := r.items.flatMap BodyItemTree.items ++ (r.last.map DeclarationTree.item).toList }

end RuleTree

/-! ## At-rules -/

/-- `_block_item*`, where `_block_item: BLOCK_TEXT | inner_block` and
`inner_block: LBRACE _block_item* RBRACE` -/
inductive BlockTree where
  | nil
  | text (text : Lexeme) (more : BlockTree)
  | inner (opening : Lexeme) (items : BlockTree) (closing : Lexeme) (more : BlockTree)

/-- `";" | block`, where `block: LBRACE _block_item* RBRACE` -/
inductive AtRuleEnd where
  | semicolon (semicolon : Lexeme)
  | block (opening : Lexeme) (items : BlockTree) (closing : Lexeme)

/-- `at_rule: AT_KEYWORD PRELUDE? (";" | block)` -/
structure AtRuleTree where
  keyword : Lexeme
  prelude : Option Lexeme
  ending : AtRuleEnd

namespace BlockTree

def tokens : BlockTree → List Token
  | nil => []
  | text t more => ⟨.blockText, t⟩ :: more.tokens
  | inner opening items closing more =>
    ⟨.openBrace, opening⟩ :: (items.tokens ++ ⟨.closeBrace, closing⟩ :: more.tokens)

end BlockTree

namespace AtRuleEnd

def tokens : AtRuleEnd → List Token
  | semicolon m => [⟨.semicolon, m⟩]
  | block opening items closing =>
    ⟨.openBrace, opening⟩ :: (items.tokens ++ [⟨.closeBrace, closing⟩])

/-- A block is the text of the source strictly between its outer braces. -/
def text : AtRuleEnd → Option (List Char)
  | semicolon _ => none
  | block opening _ closing => some (opening.upTo closing)

end AtRuleEnd

namespace AtRuleTree

def tokens (a : AtRuleTree) : List Token :=
  ⟨.atKeyword, a.keyword⟩ :: ((a.prelude.map (Token.mk .prelude)).toList ++ a.ending.tokens)

def node (a : AtRuleTree) : Node :=
  .atRule
    { name := String.ofList (a.keyword.text.drop 1)
      prelude := String.ofList (trim (a.prelude.elim [] Lexeme.text))
      block := a.ending.text.map String.ofList }

end AtRuleTree

/-! ## Sheets -/

/-- `_node: comment | rule | at_rule` -/
inductive NodeTree where
  | comment (comment : Lexeme)
  | rule (rule : RuleTree)
  | atRule (atRule : AtRuleTree)

namespace NodeTree

def tokens : NodeTree → List Token
  | comment c => [⟨.comment, c⟩]
  | rule r => r.tokens
  | atRule a => a.tokens

def node : NodeTree → Node
  | comment c => .comment { text := String.ofList (c.text.drop 2).dropLast.dropLast }
  | rule r => r.node
  | atRule a => a.node

end NodeTree

/-- The sentence of a sheet, `start: _node*`. -/
def tokensOf (trees : List NodeTree) : List Token := trees.flatMap NodeTree.tokens

/-- One node for each top-level comment, rule and at-rule, in order. -/
def nodesOf (trees : List NodeTree) : List Node := trees.map NodeTree.node

/-! ## Tokens of a source -/

/-- Tokens of these classes are the beginning of a sentence. -/
def Viable (kinds : List Terminal) : Prop :=
  ∃ trees, kinds <+: (tokensOf trees).map Token.kind

/-- Behind tokens of the classes `kinds`, what is left of the source is cut into `ts`.  Gaps are
skipped, and everywhere else a class that can come next takes its first match. -/
inductive Tokenises : List Terminal → List Char → List Token → Prop where
  | done {kinds : List Terminal} : Tokenises kinds [] []
  | gap {kinds : List Terminal} {s g r : List Char} {ts : List Token} :
    Pattern.gap.first s = some (g, r) → Tokenises kinds r ts → Tokenises kinds s ts
  | token {kinds : List Terminal} {s l r : List Char} {t : Terminal} {ts : List Token} :
    Pattern.gap.first s = none → Viable (kinds ++ [t]) → t.pattern.first s = some (l, r) →
    Tokenises (kinds ++ [t]) r ts → Tokenises kinds s (⟨t, ⟨l, r⟩⟩ :: ts)

end Spriting.Css

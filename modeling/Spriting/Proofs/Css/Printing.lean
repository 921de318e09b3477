import Spriting.Css.Printer
import Spriting.Proofs.Css.Numbering
import Spriting.Proofs.Css.SelectorList

/-!
# What the pretty form writes

The pretty form of every node character by character, for the nodes that the parser
makes.

* `chars_rule`, `chars_atRuleOf`: the form of a rule and of an at-rule;
* `renderPretty_toList`: the form of a sheet;
* `chars_numberNodes`: ids are not written.
-/

namespace Spriting.Css

open Text

/-- The pretty form of an item. -/
def BodyItem.chars (item : BodyItem) : List Char := item.renderPretty.toList

/-- The pretty form of a node. -/
def Node.chars (n : Node) : List Char := (n.renderPretty "  ").toList

/-- The pretty form of nodes. -/
def sheetChars (ns : List Node) : List Char := ['\n', '\n'].intercalate (ns.map Node.chars)

theorem renderPretty_toList (sheet : Stylesheet) :
    (sheet.render (.pretty "  ")).toList = sheetChars sheet.nodes := by
  change ("\n\n".intercalate (sheet.nodes.map (·.renderPretty "  "))).toList = _
  rw [String.toList_intercalate, List.map_map]
  rfl

theorem sheetChars_cons (n : Node) (ns : List Node) :
    sheetChars (n :: ns) = n.chars ++ if ns = [] then [] else '\n' :: '\n' :: sheetChars ns := by
  cases ns with
  | nil => simp [sheetChars]
  | cons m ns => simp [sheetChars, List.intercalate_cons_cons]

/-! ## Items and rules -/

theorem chars_declarationOf (n v : List Char) :
    (declarationOf n v).chars = trim n ++ ':' :: ' ' :: (trim v ++ [';']) := by
  simp [BodyItem.chars, BodyItem.renderPretty, declarationOf]

theorem chars_comment (c : Comment) :
    (BodyItem.comment c).chars = ['/', '*'] ++ c.text.toList ++ ['*', '/'] := by
  simp [BodyItem.chars, BodyItem.renderPretty, Comment.render]

/-- An item on a line of its own. -/
def BodyItem.line (item : BodyItem) : List Char := '\n' :: ' ' :: ' ' :: item.chars

theorem intercalate_line (l : List Char) (ls : List (List Char)) :
    ['\n'].intercalate (l :: ls) = l ++ ls.flatMap ('\n' :: ·) := by
  induction ls generalizing l with
  | nil => simp
  | cons l' ls ih => rw [List.intercalate_cons_cons, ih]; simp

theorem chars_rule (r : Rule) :
    (Node.rule r).chars =
      [',', '\n'].intercalate (r.selectors.map String.toList) ++
        ' ' :: '\x7b' :: (r.body.flatMap BodyItem.line ++ ['\n', '\x7d']) := by
  have hlines : r.body.flatMap BodyItem.line =
      (r.body.map fun i => ("  " ++ i.renderPretty).toList).flatMap ('\n' :: ·) := by
    have hline : ∀ i : BodyItem, i.line = '\n' :: ("  " ++ i.renderPretty).toList := by
      intro i
      rw [String.toList_append]
      rfl
    rw [List.flatMap_map]
    exact congrArg (List.flatMap · r.body) (funext hline)
  rw [hlines]
  change (Rule.renderPretty "  " r).toList = _
  rw [Rule.renderPretty, String.toList_intercalate, List.map_append, List.map_cons, List.map_map,
    List.cons_append, show "\n".toList = ['\n'] from rfl, intercalate_line]
  simp [openBrace, closeBrace, String.toList_intercalate, Function.comp_def]

theorem selectors_toList (selector : List Char) :
    (splitSelectors selector).map String.toList = entries (pieces {} selector) := by
  rw [splitSelectors_eq, List.map_map]
  exact List.map_id'' (fun _ => String.toList_ofList) _

/-! ## At-rules -/

/-- The prelude of an at-rule behind its name. -/
def preludeChars (q : List Char) : List Char := if trim q = [] then [] else ' ' :: trim q

/-- A block behind the prelude. -/
def blockChars : Option (List Char) → List Char
  | none => [';']
  | some block => ' ' :: '\x7b' :: (block ++ ['\x7d'])

theorem chars_atRule (a : AtRule) :
    (Node.atRule a).chars =
      '@' :: (a.name.toList ++ ((if a.prelude = "" then [] else ' ' :: a.prelude.toList) ++
        blockChars (a.block.map String.toList))) := by
  change (AtRule.renderPretty a).toList = _
  obtain ⟨n, q, block, i⟩ := a
  by_cases hq : q = "" <;> cases block <;>
    simp [AtRule.renderPretty, AtRule.head, blockChars, openBrace, closeBrace, hq]

theorem chars_atRuleOf (n q : List Char) (block : Option (List Char)) :
    (atRuleOf n q block).chars = '@' :: (n ++ (preludeChars q ++ blockChars block)) := by
  rw [atRuleOf, chars_atRule]
  simp [preludeChars, Function.comp_def]

/-! ## Ids -/

theorem renderPretty_withId (item : BodyItem) (i : Int) :
    (item.withId i).renderPretty = item.renderPretty := by
  cases item <;> rfl

theorem chars_bare (n : Node) : n.bare.chars = n.chars := by
  cases n with
  | rule r =>
    simp only [Node.chars, Node.bare, Node.renderPretty, Rule.renderPretty, Rule.bare, List.map_map,
      Function.comp_def, renderPretty_withId]
  | comment c => rfl
  | atRule a => rfl

/-- Ids are not written. -/
theorem chars_numberNodes (last : Int) (nodes : List Node) :
    (numberNodes last nodes).1.map Node.chars = nodes.map Node.chars := by
  have same := congrArg (List.map Node.chars) (numberNodes_bare last nodes)
  simpa [Function.comp_def, chars_bare] using same

end Spriting.Css

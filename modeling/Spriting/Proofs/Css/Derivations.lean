import Spriting.Proofs.Css.Blocks
import Spriting.Proofs.Css.Grammar

/-!
# Derivations of what is read

What the parser holds open is the beginning of a derivation.  Each lexeme that it shifts goes
on with it or completes the tree of a node, and a derivation of the tokens of a source leads
the parser through the same steps.

* `Pending.Opens`: the tokens that have led to what is open;
* `Reads.derivation`: what is read has a derivation;
* `parseFrom_tokens`: what has a derivation is read, and its nodes are the answer.
-/

namespace Spriting.Css

open Text

/-- `s` is cut into `ts` by the readers of their classes, whatever those are. -/
inductive Scans : List Char → List Token → Prop where
  | done : Scans [] []
  | gap {s g r : List Char} {ts : List Token} :
    gap.read s = some (g, r) → Scans r ts → Scans s ts
  | token {s l r : List Char} {t : Terminal} {ts : List Token} :
    gap.read s = none → t.reader.read s = some (l, r) → Scans r ts →
    Scans s (⟨t, ⟨l, r⟩⟩ :: ts)

variable {p q : Pending} {s l r : List Char} {pre ts : List Token} {ns : List Node} {t : Terminal}
  {node? : Option Node}

/-! ## Beginnings of derivations -/

/-- Tokens of a block in which `depth` inner blocks are open. -/
inductive Nested : Nat → List Token → Prop where
  | outer (b : BlockTree) : Nested 0 b.tokens
  | inner {depth : Nat} {ts : List Token} (opening : Lexeme) (b : BlockTree) :
    Nested depth ts → Nested (depth + 1) (ts ++ ⟨.openBrace, opening⟩ :: b.tokens)

/-- The first block and then the second. -/
def BlockTree.append : BlockTree → BlockTree → BlockTree
  | .nil, b => b
  | .text t more, b => .text t (more.append b)
  | .inner opening items closing more, b => .inner opening items closing (more.append b)

theorem BlockTree.tokens_append (a b : BlockTree) : (a.append b).tokens = a.tokens ++ b.tokens := by
  induction a with
  | nil => rfl
  | text t more ih => simp [BlockTree.append, BlockTree.tokens, ih]
  | inner opening items closing more _ ih => simp [BlockTree.append, BlockTree.tokens, ih]

theorem Nested.append {depth : Nat} {ts : List Token} (h : Nested depth ts) (b : BlockTree) :
    Nested depth (ts ++ b.tokens) := by
  cases h with
  | outer a =>
    rw [← BlockTree.tokens_append]
    exact .outer _
  | inner opening a h =>
    rw [List.append_assoc, List.cons_append, ← BlockTree.tokens_append]
    exact .inner opening _ h

/-- Tokens of a rule of which the body is open behind these items. -/
def InBody (selector : List Char) (items : List BodyItem) (pre : List Token) : Prop :=
  ∃ sel opening, ∃ trees : List BodyItemTree, sel.text = selector ∧
    items.reverse = trees.flatMap BodyItemTree.items ∧
    pre = ⟨.selector, sel⟩ :: ⟨.openBrace, opening⟩ :: trees.flatMap BodyItemTree.tokens

/-- Tokens of a rule of which the body ends with this item so far, a declaration. -/
def InDeclaration (selector : List Char) (items : List BodyItem) (item : BodyItem)
    (pre : List Token) : Prop :=
  ∃ body, ∃ d : DeclarationTree, InBody selector items body ∧ d.item = item ∧
    pre = body ++ d.tokens

/-- The tokens `pre` since the last finished node have led to what is open in front of `s`. -/
def Pending.Opens : Pending → List Token → List Char → Prop
  | nothing, pre, _ => pre = []
  | selector l, pre, _ => ∃ sel : Lexeme, sel.text = l ∧ pre = [⟨.selector, sel⟩]
  | body l items, pre, _ => InBody l items pre
  | property l items n, pre, _ =>
    ∃ body name, InBody l items body ∧ name.text = n ∧ pre = body ++ [⟨.property, name⟩]
  | colon l items n, pre, _ =>
    ∃ body name colon, InBody l items body ∧ name.text = n ∧
      pre = body ++ [⟨.property, name⟩, ⟨.colon, colon⟩]
  | value l items n v, pre, _ => InDeclaration l items (declarationOf n v) pre
  | keyword n, pre, _ => ∃ kw : Lexeme, kw.text.drop 1 = n ∧ pre = [⟨.atKeyword, kw⟩]
  | prelude n q, pre, _ =>
    ∃ kw pr : Lexeme, kw.text.drop 1 = n ∧ pr.text = q ∧ pre = [⟨.atKeyword, kw⟩, ⟨.prelude, pr⟩]
  | block n q depth pieces, pre, s =>
    ∃ kw : Lexeme, ∃ pr : Option Lexeme, ∃ opening inside, kw.text.drop 1 = n ∧
      pr.elim [] Lexeme.text = q ∧ Nested depth inside ∧ opening.rest = joined pieces ++ s ∧
      pre = ⟨.atKeyword, kw⟩ :: ((pr.map (Token.mk .prelude)).toList ++
        ⟨.openBrace, opening⟩ :: inside)

namespace Pending

theorem Opens.skip (h : p.Opens pre (l ++ s)) : (p.skip l).Opens pre s := by
  cases p with
  | block n q depth pieces =>
    obtain ⟨kw, pr, opening, inside, hn, hq, hinside, hrest, hpre⟩ := h
    refine ⟨kw, pr, opening, inside, hn, hq, hinside, ?_, hpre⟩
    rw [hrest, joined_cons, List.append_assoc]
  | _ => exact h

end Pending

theorem InBody.item {selector : List Char} {items : List BodyItem} (h : InBody selector items pre)
    (tree : BodyItemTree) : InBody selector (tree.items.reverse ++ items) (pre ++ tree.tokens) := by
  obtain ⟨sel, opening, trees, hsel, hitems, hpre⟩ := h
  refine ⟨sel, opening, trees ++ [tree], hsel, ?_, ?_⟩
  · simp [hitems]
  · simp [hpre]

theorem Lexeme.upTo_eq {a b : Lexeme} {w : List Char} (h : a.rest = w ++ (b.text ++ b.rest)) :
    a.upTo b = w := by
  simp [Lexeme.upTo, h]

/-- Tokens of a rule of which the body may end here. -/
def InRule (selector : List Char) (items : List BodyItem) (pre : List Token) : Prop :=
  ∃ items₀ body, ∃ last : Option DeclarationTree, InBody selector items₀ body ∧
    items = (last.map DeclarationTree.item).toList ++ items₀ ∧
    pre = body ++ last.elim [] DeclarationTree.tokens

theorem InRule.semicolon {selector : List Char} {items : List BodyItem}
    (h : InRule selector items pre) (m : Lexeme) :
    InBody selector items (pre ++ [⟨.semicolon, m⟩]) := by
  obtain ⟨items₀, body, last, hbody, rfl, rfl⟩ := h
  rw [List.append_assoc]
  cases last with
  | none => exact hbody.item (.semicolon m)
  | some d => exact hbody.item (.declaration d m)

/-- A body ends with a declaration that no semicolon follows, or without one. -/
theorem InRule.close {selector : List Char} {items : List BodyItem} (h : InRule selector items pre)
    (closing : Lexeme) :
    ∃ tree : NodeTree, pre ++ [⟨.closeBrace, closing⟩] = tree.tokens ∧
      tree.node = ruleOf selector items := by
  obtain ⟨_, _, last, ⟨sel, opening, trees, hsel, hitems, rfl⟩, rfl, rfl⟩ := h
  refine ⟨.rule ⟨sel, opening, trees, last, closing⟩, ?_, ?_⟩
  · simp [NodeTree.tokens, RuleTree.tokens]
  · cases last <;> simp [NodeTree.node, RuleTree.node, ruleOf, hsel, hitems]

theorem Pending.Opens.endsBody {selector : List Char} {items : List BodyItem} (h : p.Opens pre s)
    (hends : p.EndsBody selector items) : InRule selector items pre := by
  cases hends with
  | body => exact ⟨items, pre, none, h, rfl, by simp⟩
  | colon =>
    obtain ⟨body, name, colon, hbody, rfl, rfl⟩ := h
    exact ⟨_, body, some ⟨name, colon, none⟩, hbody, rfl, rfl⟩
  | value =>
    obtain ⟨body, d, hbody, hd, rfl⟩ := h
    exact ⟨_, body, some d, hbody, by rw [← hd]; rfl, rfl⟩

theorem Pending.Opens.endsHead {n x : List Char} (h : p.Opens pre s) (hends : p.EndsHead n x) :
    ∃ kw : Lexeme, ∃ pr : Option Lexeme, kw.text.drop 1 = n ∧ pr.elim [] Lexeme.text = x ∧
      pre = ⟨.atKeyword, kw⟩ :: (pr.map (Token.mk .prelude)).toList := by
  cases hends with
  | keyword =>
    obtain ⟨kw, hkw, rfl⟩ := h
    exact ⟨kw, none, hkw, rfl, rfl⟩
  | prelude =>
    obtain ⟨kw, pr, hkw, hpr, rfl⟩ := h
    exact ⟨kw, some pr, hkw, hpr, rfl⟩

/-- A lexeme goes on with the beginning of a derivation or completes the tree of a node. -/
theorem Pending.Opens.shift (h : p.Opens pre (l ++ r)) (hs : p.shift l t = some (node?, q)) :
    (node? = none ∧ q.Opens (pre ++ [⟨t, ⟨l, r⟩⟩]) r) ∨
      ∃ tree : NodeTree, node? = some tree.node ∧ q = .nothing ∧
        pre ++ [⟨t, ⟨l, r⟩⟩] = tree.tokens := by
  cases Pending.shift_eq_some_iff.1 hs with
  | selector =>
    obtain rfl := h
    exact .inl ⟨rfl, ⟨l, r⟩, rfl, rfl⟩
  | comment =>
    obtain rfl := h
    exact .inr ⟨.comment ⟨l, r⟩, rfl, rfl, rfl⟩
  | atKeyword =>
    obtain rfl := h
    exact .inl ⟨rfl, ⟨l, r⟩, rfl, rfl⟩
  | openBody =>
    obtain ⟨sel, rfl, rfl⟩ := h
    exact .inl ⟨rfl, sel, ⟨l, r⟩, [], rfl, rfl, rfl⟩
  | property => exact .inl ⟨rfl, pre, ⟨l, r⟩, h, rfl, rfl⟩
  | bodyComment => exact .inl ⟨rfl, InBody.item h (.comment ⟨l, r⟩)⟩
  | colon =>
    obtain ⟨body, name, hbody, rfl, rfl⟩ := h
    exact .inl ⟨rfl, body, name, ⟨l, r⟩, hbody, rfl, by simp⟩
  | value =>
    obtain ⟨body, name, colon, hbody, rfl, rfl⟩ := h
    exact .inl ⟨rfl, body, ⟨name, colon, some ⟨l, r⟩⟩, hbody, rfl, by simp [DeclarationTree.tokens]⟩
  | semicolon hends =>
    exact .inl ⟨rfl, (h.endsBody hends).semicolon ⟨l, r⟩⟩
  | closeBody hends =>
    obtain ⟨tree, htokens, hnode⟩ := (h.endsBody hends).close ⟨l, r⟩
    exact .inr ⟨tree, congrArg some hnode.symm, rfl, htokens⟩
  | prelude =>
    obtain ⟨kw, rfl, rfl⟩ := h
    exact .inl ⟨rfl, kw, ⟨l, r⟩, rfl, rfl, rfl⟩
  | statement hends =>
    obtain ⟨kw, pr, rfl, rfl, rfl⟩ := h.endsHead hends
    exact .inr ⟨.atRule ⟨kw, pr, .semicolon ⟨l, r⟩⟩, rfl, rfl, by
      simp [NodeTree.tokens, AtRuleTree.tokens, AtRuleEnd.tokens]⟩
  | openBlock hends =>
    obtain ⟨kw, pr, hkw, hpr, rfl⟩ := h.endsHead hends
    refine .inl ⟨rfl, kw, pr, ⟨l, r⟩, [], hkw, hpr, .outer .nil, rfl, ?_⟩
    simp
  | blockText =>
    obtain ⟨kw, pr, opening, inside, rfl, rfl, hinside, hrest, rfl⟩ := h
    refine .inl ⟨rfl, kw, pr, opening, _, rfl, rfl, hinside.append (.text ⟨l, r⟩ .nil), ?_, ?_⟩
    · rw [hrest, joined_cons, List.append_assoc]
    · simp [BlockTree.tokens]
  | openInner =>
    obtain ⟨kw, pr, opening, inside, rfl, rfl, hinside, hrest, rfl⟩ := h
    refine .inl ⟨rfl, kw, pr, opening, _, rfl, rfl, hinside.inner ⟨l, r⟩ .nil, ?_, ?_⟩
    · rw [hrest, joined_cons, List.append_assoc]
    · simp [BlockTree.tokens]
  | closeInner =>
    obtain ⟨kw, pr, opening, inside, rfl, rfl, hinside, hrest, rfl⟩ := h
    cases hinside with
    | inner o b hinside =>
      have nested := hinside.append (.inner o b ⟨l, r⟩ .nil)
      refine .inl ⟨rfl, kw, pr, opening, _, rfl, rfl, nested, ?_, ?_⟩
      · rw [hrest, joined_cons, List.append_assoc]
      · simp [BlockTree.tokens]
  | closeBlock =>
    obtain ⟨kw, pr, opening, inside, rfl, rfl, ⟨b⟩, hrest, rfl⟩ := h
    refine .inr ⟨.atRule ⟨kw, pr, .block opening b ⟨l, r⟩⟩, ?_, rfl, ?_⟩
    · have htext : opening.upTo ⟨l, r⟩ = joined _ := Lexeme.upTo_eq hrest
      simp [NodeTree.node, AtRuleTree.node, AtRuleEnd.text, htext, atRuleOf]
    · simp [NodeTree.tokens, AtRuleTree.tokens, AtRuleEnd.tokens]

/-- **What is read has a derivation.** The tokens behind those that have led to what is open
complete a derivation, and its nodes are the answer. -/
theorem Reads.derivation {ls : List (Terminal × List Char)} (h : Reads p s ls ns)
    (hp : p.Opens pre s) :
    ∃ ts trees, Scans s ts ∧ pre ++ ts = tokensOf trees ∧ ns = nodesOf trees := by
  induction h generalizing pre with
  | done =>
    obtain rfl := hp
    exact ⟨[], [], .done, rfl, rfl⟩
  | gap hgap _ ih =>
    have hs := (Css.gap.splits hgap).1
    rw [hs] at hp
    obtain ⟨ts, trees, hts, htokens, hnodes⟩ := ih hp.skip
    exact ⟨ts, trees, .gap hgap hts, htokens, hnodes⟩
  | @lexeme p q s l r t node? ls ns hgap hfirst hshift _ ih =>
    have hread := (firstLexeme_eq_some hfirst).2
    have hs := (t.reader.splits hread).1
    rw [hs] at hp
    rcases hp.shift hshift with ⟨rfl, hq⟩ | ⟨tree, rfl, rfl, htree⟩
    · obtain ⟨ts, trees, hts, htokens, hnodes⟩ := ih hq
      rw [List.append_assoc] at htokens
      exact ⟨_, trees, .token hgap hread hts, htokens, hnodes⟩
    · obtain ⟨ts, trees, hts, htokens, hnodes⟩ := ih rfl
      refine ⟨_, tree :: trees, .token hgap hread hts, ?_, ?_⟩
      · rw [tokensOf, List.flatMap_cons, ← htree, ← tokensOf, ← htokens]
        simp
      · rw [nodesOf, List.map_cons, ← nodesOf, ← hnodes]
        rfl

/-! ## Reading what has a derivation -/

variable {a : Lexeme}

/-- Outside blocks, the parser shifts the token in front. -/
theorem Scans.shift (h : Scans s (⟨t, a⟩ :: ts)) (hp : ∀ g, p.skip g = p)
    (hs : p.Shifts a.text t node? q) :
    Scans a.rest ts ∧ parseFrom p s = (parseFrom q a.rest).map (node?.toList ++ ·) := by
  generalize hts : (⟨t, a⟩ : Token) :: ts = tokens at h
  induction h with
  | done => cases hts
  | gap hgap _ ih =>
    rw [parseFrom_gap hgap, hp]
    exact ih hts
  | token hgap hread hrest =>
    cases hts
    have hshift := Pending.shift_eq_some_iff.2 hs
    exact ⟨hrest, parseFrom_lexeme hgap (firstLexeme_of_expected hs.expected hread) hshift⟩

/-- Inside a block, the parser also keeps the gap before the token in front. -/
theorem Scans.shift_block {n x : List Char} {depth : Nat} (pieces : List (List Char))
    (h : Scans s (⟨t, a⟩ :: ts)) :
    Scans a.rest ts ∧ ∃ pieces', joined pieces' ++ (a.text ++ a.rest) = joined pieces ++ s ∧
      ∀ node? q, (Pending.block n x depth pieces').Shifts a.text t node? q →
        parseFrom (.block n x depth pieces) s = (parseFrom q a.rest).map (node?.toList ++ ·) := by
  generalize hts : (⟨t, a⟩ : Token) :: ts = tokens at h
  induction h generalizing pieces with
  | done => cases hts
  | @gap s g r _ hgap _ ih =>
    obtain ⟨hrest, pieces', hpieces, hparse⟩ := ih (g :: pieces) hts
    refine ⟨hrest, pieces', ?_, fun node? q hs => ?_⟩
    · rw [hpieces, joined_cons, (Css.gap.splits hgap).1, List.append_assoc]
    · rw [parseFrom_gap hgap]
      exact hparse node? q hs
  | token hgap hread hrest =>
    cases hts
    refine ⟨hrest, pieces, ?_, fun node? q hs => ?_⟩
    · rw [(Terminal.reader _).splits hread |>.1]
    · have hshift := Pending.shift_eq_some_iff.2 hs
      exact parseFrom_lexeme hgap (firstLexeme_of_expected hs.expected hread) hshift

/-- A token that finishes no node. -/
theorem Scans.shift_on (h : Scans s (⟨t, a⟩ :: ts)) (hp : ∀ g, p.skip g = p)
    (hs : p.Shifts a.text t none q) :
    Scans a.rest ts ∧ parseFrom p s = parseFrom q a.rest := by
  obtain ⟨hrest, hparse⟩ := h.shift hp hs
  exact ⟨hrest, hparse.trans (except_map_nil_append _)⟩

variable {selector : List Char} {items : List BodyItem}

theorem Pending.EndsBody.skip (h : p.EndsBody selector items) (g : List Char) : p.skip g = p := by
  cases h <;> rfl

theorem Pending.EndsHead.skip {n x : List Char} (h : p.EndsHead n x) (g : List Char) :
    p.skip g = p := by
  cases h <;> rfl

theorem DeclarationTree.parseFrom_eq (d : DeclarationTree) (h : Scans s (d.tokens ++ ts)) :
    ∃ q s', Scans s' ts ∧ parseFrom (.body selector items) s = parseFrom q s' ∧
      q.EndsBody selector (d.item :: items) := by
  obtain ⟨name, colon, value⟩ := d
  obtain ⟨h, hname⟩ := h.shift_on (p := .body selector items) (fun _ => rfl) .property
  obtain ⟨h, hcolon⟩ := h.shift_on (p := .property selector items name.text) (fun _ => rfl) .colon
  cases value with
  | none =>
    exact ⟨_, colon.rest, h, hname.trans hcolon, .colon⟩
  | some v =>
    obtain ⟨h, hvalue⟩ := h.shift_on (p := .colon selector items name.text) (fun _ => rfl) .value
    exact ⟨_, v.rest, h, (hname.trans hcolon).trans hvalue, .value⟩

theorem BodyItemTree.parseFrom_eq (tree : BodyItemTree) (items : List BodyItem)
    (h : Scans s (tree.tokens ++ ts)) :
    ∃ s', Scans s' ts ∧ parseFrom (.body selector items) s =
      parseFrom (.body selector (tree.items.reverse ++ items)) s' := by
  cases tree with
  | comment c => exact ⟨c.rest, h.shift_on (fun _ => rfl) .bodyComment⟩
  | semicolon m => exact ⟨m.rest, h.shift_on (fun _ => rfl) (.semicolon .body)⟩
  | declaration d m =>
    rw [tokens, List.append_assoc] at h
    obtain ⟨q, s', h, hd, hq⟩ := d.parseFrom_eq h
    obtain ⟨h, hm⟩ := h.shift_on hq.skip (.semicolon hq)
    exact ⟨m.rest, h, hd.trans hm⟩

theorem parseFrom_items (trees : List BodyItemTree) (items : List BodyItem)
    (h : Scans s (trees.flatMap BodyItemTree.tokens ++ ts)) :
    ∃ s', Scans s' ts ∧ parseFrom (.body selector items) s =
      parseFrom (.body selector ((trees.flatMap BodyItemTree.items).reverse ++ items)) s' := by
  induction trees generalizing s items with
  | nil => exact ⟨s, h, rfl⟩
  | cons tree trees ih =>
    rw [List.flatMap_cons, List.append_assoc] at h
    obtain ⟨s₁, h, htree⟩ := tree.parseFrom_eq items h
    obtain ⟨s₂, h, htrees⟩ := ih _ h
    refine ⟨s₂, h, ?_⟩
    rw [htree, htrees, List.flatMap_cons, List.reverse_append, List.append_assoc]

theorem RuleTree.parseFrom_eq (r : RuleTree) (h : Scans s (r.tokens ++ ts)) :
    Scans r.closing.rest ts ∧
      parseFrom .nothing s = (parseFrom .nothing r.closing.rest).map (r.node :: ·) := by
  obtain ⟨sel, opening, trees, last, closing⟩ := r
  simp only [tokens, List.cons_append, List.append_assoc] at h
  obtain ⟨h, hsel⟩ := h.shift_on (p := .nothing) (fun _ => rfl) .selector
  obtain ⟨h, hopening⟩ := h.shift_on (p := .selector sel.text) (fun _ => rfl) .openBody
  obtain ⟨s₁, h, hitems⟩ := parseFrom_items trees [] h
  cases last with
  | none =>
    obtain ⟨h, hclosing⟩ := h.shift (fun _ => rfl) (.closeBody .body)
    refine ⟨h, ?_⟩
    rw [hsel, hopening, hitems, hclosing]
    simp [node, ruleOf]
  | some d =>
    obtain ⟨q, s₂, h, hd, hq⟩ := d.parseFrom_eq h
    obtain ⟨h, hclosing⟩ := h.shift hq.skip (.closeBody hq)
    refine ⟨h, ?_⟩
    rw [hsel, hopening, hitems, hd, hclosing]
    simp [node, ruleOf]

variable {n x : List Char}

/-- A token that is kept as a part of a block. -/
theorem Scans.keep (depth depth' : Nat) (pieces : List (List Char)) (h : Scans s (⟨t, a⟩ :: ts))
    (hs : ∀ pieces, (Pending.block n x depth pieces).Shifts a.text t none
      (.block n x depth' (a.text :: pieces))) :
    Scans a.rest ts ∧ ∃ pieces', joined pieces' ++ a.rest = joined pieces ++ s ∧
      parseFrom (.block n x depth pieces) s = parseFrom (.block n x depth' pieces') a.rest := by
  obtain ⟨hrest, pieces', hpieces, hparse⟩ := h.shift_block pieces
  refine ⟨hrest, a.text :: pieces', ?_, ?_⟩
  · rw [joined_cons, List.append_assoc, hpieces]
  · rw [hparse none _ (hs pieces')]
    exact except_map_nil_append _

theorem BlockTree.parseFrom_eq (b : BlockTree) (depth : Nat) (pieces : List (List Char))
    (h : Scans s (b.tokens ++ ts)) :
    ∃ s' pieces', Scans s' ts ∧ joined pieces' ++ s' = joined pieces ++ s ∧
      parseFrom (.block n x depth pieces) s = parseFrom (.block n x depth pieces') s' := by
  induction b generalizing s ts depth pieces with
  | nil => exact ⟨s, pieces, h, rfl, rfl⟩
  | text l more ih =>
    obtain ⟨h, pieces₁, hjoined₁, hl⟩ := h.keep depth depth pieces (fun _ => .blockText)
    obtain ⟨s', pieces₂, h, hjoined₂, hmore⟩ := ih depth pieces₁ h
    exact ⟨s', pieces₂, h, hjoined₂.trans hjoined₁, hl.trans hmore⟩
  | inner opening items closing more ihItems ihMore =>
    rw [tokens, List.cons_append, List.append_assoc, List.cons_append] at h
    obtain ⟨h, pieces₁, hjoined₁, hopening⟩ := h.keep depth (depth + 1) pieces (fun _ => .openInner)
    obtain ⟨s₂, pieces₂, h, hjoined₂, hitems⟩ := ihItems (depth + 1) pieces₁ h
    obtain ⟨h, pieces₃, hjoined₃, hclosing⟩ :=
      h.keep (depth + 1) depth pieces₂ (fun _ => .closeInner)
    obtain ⟨s', pieces₄, h, hjoined₄, hmore⟩ := ihMore depth pieces₃ h
    refine ⟨s', pieces₄, h, ?_, ?_⟩
    · rw [hjoined₄, hjoined₃, hjoined₂, hjoined₁]
    · rw [hopening, hitems, hclosing, hmore]

/-- Behind a keyword and a prelude, an at-rule ends with a semicolon or with its block. -/
theorem AtRuleEnd.parseFrom_eq (e : AtRuleEnd) (h : Scans s (e.tokens ++ ts))
    (hp : p.EndsHead n x) :
    ∃ s', Scans s' ts ∧ parseFrom p s =
      (parseFrom .nothing s').map (atRuleOf n x e.text :: ·) := by
  cases e with
  | semicolon m => exact ⟨m.rest, h.shift hp.skip (.statement hp)⟩
  | block opening items closing =>
    rw [tokens, List.cons_append, List.append_assoc] at h
    obtain ⟨h, hblock⟩ := h.shift_on hp.skip (.openBlock hp)
    obtain ⟨s', pieces, h, hjoined, hitems⟩ := items.parseFrom_eq 0 [] h
    obtain ⟨h, pieces', hjoined', hclosing⟩ := h.shift_block pieces
    have htext : opening.upTo closing = joined pieces' :=
      Lexeme.upTo_eq (hjoined'.trans hjoined).symm
    refine ⟨closing.rest, h, ?_⟩
    rw [hblock, hitems, hclosing _ _ .closeBlock, text, htext]
    rfl

theorem AtRuleTree.parseFrom_eq (r : AtRuleTree) (h : Scans s (r.tokens ++ ts)) :
    ∃ s', Scans s' ts ∧ parseFrom .nothing s = (parseFrom .nothing s').map (r.node :: ·) := by
  obtain ⟨kw, pr, ending⟩ := r
  obtain ⟨h, hkw⟩ := h.shift_on (p := .nothing) (fun _ => rfl) .atKeyword
  cases pr with
  | none =>
    obtain ⟨s', h, hending⟩ := ending.parseFrom_eq h .keyword
    exact ⟨s', h, hkw.trans hending⟩
  | some pr =>
    obtain ⟨h, hpr⟩ := h.shift_on (p := .keyword (kw.text.drop 1)) (fun _ => rfl) .prelude
    obtain ⟨s', h, hending⟩ := ending.parseFrom_eq h .prelude
    exact ⟨s', h, (hkw.trans hpr).trans hending⟩

theorem NodeTree.parseFrom_eq (tree : NodeTree) (h : Scans s (tree.tokens ++ ts)) :
    ∃ s', Scans s' ts ∧ parseFrom .nothing s = (parseFrom .nothing s').map (tree.node :: ·) := by
  cases tree with
  | comment c => exact ⟨c.rest, h.shift (p := .nothing) (fun _ => rfl) .comment⟩
  | rule r => exact ⟨r.closing.rest, r.parseFrom_eq h⟩
  | atRule r => exact r.parseFrom_eq h

theorem Scans.parseFrom_nil (h : Scans s []) : parseFrom .nothing s = .ok [] := by
  generalize hts : ([] : List Token) = ts at h
  induction h with
  | done => rw [Css.parseFrom_nil, if_pos rfl]
  | gap hgap _ ih =>
    rw [parseFrom_gap hgap]
    exact ih hts
  | token => cases hts

/-- **What has a derivation is read.** The parser answers the nodes of the derivation. -/
theorem parseFrom_tokens (trees : List NodeTree) (h : Scans s (tokensOf trees)) :
    parseFrom .nothing s = .ok (nodesOf trees) := by
  induction trees generalizing s with
  | nil => exact h.parseFrom_nil
  | cons tree trees ih =>
    rw [tokensOf, List.flatMap_cons] at h
    obtain ⟨s', h, htree⟩ := tree.parseFrom_eq h
    rw [htree, ih h]
    rfl

end Spriting.Css

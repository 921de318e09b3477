import Spriting.Proofs.Css.Derivations

/-!
# What the parser accepts

The classes that may come next are those that go on a sentence of the grammar, and no two of
them have lexemes that start alike.  So a source is cut into tokens in one way at most, and it
is a stylesheet exactly if these are a sentence.

* `Viable.expected`: what goes on a sentence may come next;
* `Tokenises.eq`: a source has one sequence of tokens at most;
* `parse_accepts`: the parser accepts the sentences of the grammar and answers their nodes.
-/

namespace Spriting.Css

/-! ## What is open behind the beginning of a sentence -/

/-- What is open behind tokens of these classes, with empty texts in the place of theirs. -/
def Pending.follow : Pending → List Terminal → Option Pending
  | p, [] => some p
  | p, t :: ts => (p.shift [] t).bind fun step => step.2.follow ts

theorem follow_append (p : Pending) (ks ks' : List Terminal) :
    p.follow (ks ++ ks') = (p.follow ks).bind (·.follow ks') := by
  induction ks generalizing p with
  | nil => rfl
  | cons t ks ih =>
    rw [List.cons_append, Pending.follow, Pending.follow, Option.bind_assoc]
    simp only [ih]

/-- The classes of tokens. -/
def kindsOf (ts : List Token) : List Terminal := ts.map Token.kind

theorem kindsOf_append (ts ts' : List Token) : kindsOf (ts ++ ts') = kindsOf ts ++ kindsOf ts' :=
  List.map_append

/-- Tokens of the classes of `ts` lead from `p` to `q`. -/
def Pending.Leads (p : Pending) (ts : List Token) (q : Pending) : Prop :=
  p.follow (kindsOf ts) = some q

variable {p q r : Pending} {ts ts' : List Token} {t : Terminal} {a : Lexeme}
  {selector : List Char} {items : List BodyItem}

namespace Pending.Leads

theorem nil : p.Leads [] p := rfl

theorem append (h : p.Leads ts q) (h' : q.Leads ts' r) : p.Leads (ts ++ ts') r := by
  rw [Leads, kindsOf_append, follow_append, h]
  exact h'

theorem cons {node? : Option Node} (hs : p.Shifts [] t node? q) (h : q.Leads ts r) :
    p.Leads (⟨t, a⟩ :: ts) r := by
  rw [Leads, kindsOf, List.map_cons, follow, shift_eq_some_iff.2 hs]
  exact h

theorem one {node? : Option Node} (hs : p.Shifts [] t node? q) : p.Leads [⟨t, a⟩] q :=
  cons hs nil

end Pending.Leads

theorem DeclarationTree.leads (d : DeclarationTree) :
    ∃ q items', (Pending.body selector items).Leads d.tokens q ∧ q.EndsBody selector items' := by
  obtain ⟨name, colon, value⟩ := d
  cases value with
  | none => exact ⟨_, _, .cons .property (.one .colon), .colon⟩
  | some v => exact ⟨_, _, .cons .property (.cons .colon (.one .value)), .value⟩

theorem BodyItemTree.leads (tree : BodyItemTree) :
    ∃ items', (Pending.body selector items).Leads tree.tokens (.body selector items') := by
  cases tree with
  | comment c => exact ⟨_, .one .bodyComment⟩
  | semicolon m => exact ⟨_, .one (.semicolon .body)⟩
  | declaration d m =>
    obtain ⟨q, items', hd, hq⟩ := d.leads
    exact ⟨items', hd.append (.one (.semicolon hq))⟩

theorem leads_items (trees : List BodyItemTree) :
    ∃ items', (Pending.body selector items).Leads (trees.flatMap BodyItemTree.tokens)
      (.body selector items') := by
  induction trees generalizing items with
  | nil => exact ⟨items, .nil⟩
  | cons tree trees ih =>
    obtain ⟨items₁, htree⟩ := tree.leads
    obtain ⟨items₂, htrees⟩ := ih
    exact ⟨items₂, htree.append htrees⟩

theorem RuleTree.leads (tree : RuleTree) : Pending.nothing.Leads tree.tokens .nothing := by
  obtain ⟨sel, opening, trees, last, closing⟩ := tree
  obtain ⟨items, hitems⟩ := leads_items trees
  refine .cons .selector (.cons .openBody ?_)
  cases last with
  | none => exact (hitems.append .nil).append (.one (.closeBody .body))
  | some d =>
    obtain ⟨q, items', hd, hq⟩ := d.leads
    exact (hitems.append hd).append (.one (.closeBody hq))

theorem BlockTree.leads (tree : BlockTree) {n x : List Char} (depth : Nat)
    (pieces : List (List Char)) :
    ∃ pieces', (Pending.block n x depth pieces).Leads tree.tokens (.block n x depth pieces') := by
  induction tree generalizing depth pieces with
  | nil => exact ⟨pieces, .nil⟩
  | text l more ih =>
    obtain ⟨pieces', hmore⟩ := ih depth _
    exact ⟨pieces', .cons .blockText hmore⟩
  | inner opening items closing more ihItems ihMore =>
    obtain ⟨pieces₁, hitems⟩ := ihItems (depth + 1) _
    obtain ⟨pieces₂, hmore⟩ := ihMore depth _
    exact ⟨pieces₂, .cons .openInner (hitems.append (.cons .closeInner hmore))⟩

theorem AtRuleEnd.leads (e : AtRuleEnd) {n x : List Char} (hp : p.EndsHead n x) :
    p.Leads e.tokens .nothing := by
  cases e with
  | semicolon m => exact .one (.statement hp)
  | block opening items closing =>
    obtain ⟨pieces, hitems⟩ := items.leads 0 []
    exact .cons (.openBlock hp) (hitems.append (.one .closeBlock))

theorem AtRuleTree.leads (tree : AtRuleTree) : Pending.nothing.Leads tree.tokens .nothing := by
  obtain ⟨kw, pr, ending⟩ := tree
  refine .cons .atKeyword ?_
  cases pr with
  | none => exact ending.leads .keyword
  | some pr => exact .cons .prelude (ending.leads .prelude)

theorem leads_tokensOf (trees : List NodeTree) :
    Pending.nothing.Leads (tokensOf trees) .nothing := by
  induction trees with
  | nil => exact .nil
  | cons tree trees ih =>
    refine Pending.Leads.append ?_ ih
    cases tree with
    | comment c => exact .one .comment
    | rule r => exact r.leads
    | atRule r => exact r.leads

theorem Viable.expected {ks : List Terminal} (h : Viable (ks ++ [t])) :
    ∃ p, Pending.nothing.follow ks = some p ∧ t ∈ p.expected := by
  obtain ⟨trees, more, hmore⟩ := h
  have whole : Pending.nothing.follow (ks ++ [t] ++ more) = some .nothing := by
    rw [hmore]
    exact leads_tokensOf trees
  rw [List.append_assoc, follow_append] at whole
  obtain ⟨p, hp, hnext⟩ := Option.bind_eq_some_iff.1 whole
  obtain ⟨step, hstep, -⟩ := Option.bind_eq_some_iff.1 hnext
  exact ⟨p, hp, Pending.shift_isSome.1 (by rw [hstep]; rfl)⟩

/-! ## Tokens of a source -/

variable {ks : List Terminal} {s : List Char}

theorem Tokenises.scans (h : Tokenises ks s ts) : Scans s ts := by
  induction h with
  | done => exact .done
  | gap hgap _ ih => exact .gap ((first_gap _).symm.trans hgap) ih
  | token hgap _ hread _ ih =>
    exact .token ((first_gap _).symm.trans hgap) ((Terminal.first_pattern _ _).symm.trans hread) ih

theorem Viable.of_prefix {ks' : List Terminal} (h : Viable ks') (hks : ks <+: ks') : Viable ks := by
  obtain ⟨trees, htrees⟩ := h
  exact ⟨trees, hks.trans htrees⟩

theorem Scans.tokenises (h : Scans s ts) (hviable : Viable (ks ++ kindsOf ts)) :
    Tokenises ks s ts := by
  induction h generalizing ks with
  | done => exact .done
  | gap hgap _ ih => exact .gap ((first_gap _).trans hgap) (ih hviable)
  | @token s l r t ts hgap hread _ ih =>
    have split : ks ++ kindsOf (⟨t, ⟨l, r⟩⟩ :: ts) = ks ++ [t] ++ kindsOf ts := by
      rw [List.append_assoc]
      rfl
    rw [split] at hviable
    exact .token ((first_gap _).trans hgap) (hviable.of_prefix (List.prefix_append _ _))
      ((Terminal.first_pattern _ _).trans hread) (ih hviable)

/-- A sentence is cut by the classes that go on it. -/
theorem tokenises_iff_scans {trees : List NodeTree} :
    Tokenises [] s (tokensOf trees) ↔ Scans s (tokensOf trees) :=
  ⟨Tokenises.scans, fun h => h.tokenises ⟨trees, List.prefix_refl _⟩⟩

theorem first_nil (t : Terminal) : t.pattern.first [] = none := by
  rw [Terminal.first_pattern]
  cases t <;> rfl

/-- Of two classes that can come next, one at most has a match. -/
theorem Viable.kind_eq {t' : Terminal} {m m' : Match} (h : Viable (ks ++ [t]))
    (h' : Viable (ks ++ [t'])) (hm : t.pattern.first s = some m)
    (hm' : t'.pattern.first s = some m') : t = t' := by
  obtain ⟨p, hp, ht⟩ := h.expected
  obtain ⟨p', hp', ht'⟩ := h'.expected
  obtain rfl : p = p' := Option.some.inj (hp.symm.trans hp')
  by_contra hne
  rw [Terminal.first_pattern] at hm hm'
  have none := (p.expected_apart t ht t' ht' hne).declines (l := m.1) (r := m.2) hm
  rw [none] at hm'
  cases hm'

/-- A source is cut into tokens in one way at most. -/
theorem Tokenises.eq (h : Tokenises ks s ts) (h' : Tokenises ks s ts') : ts = ts' := by
  induction h generalizing ts' with
  | done =>
    cases h' with
    | done => rfl
    | gap hgap => cases hgap
    | token _ _ hread =>
      rw [first_nil] at hread
      cases hread
  | gap hgap _ ih =>
    cases h' with
    | done => cases hgap
    | gap hgap' h' =>
      rw [hgap] at hgap'
      cases hgap'
      exact ih h'
    | token hgap' =>
      rw [hgap] at hgap'
      cases hgap'
  | token hgap hviable hread _ ih =>
    cases h' with
    | done =>
      rw [first_nil] at hread
      cases hread
    | gap hgap' =>
      rw [hgap] at hgap'
      cases hgap'
    | token _ hviable' hread' h' =>
      obtain rfl := hviable.kind_eq hviable' hread hread'
      rw [hread] at hread'
      cases hread'
      rw [ih h']

/-! ## Sentences -/

theorem parseNodes_eq_ok_iff_tokenises {ns : List Node} :
    parseNodes s = .ok ns ↔
      ∃ trees, Tokenises [] s (tokensOf trees) ∧ ns = nodesOf trees := by
  rw [parseNodes_eq_ok_iff_parseFrom]
  constructor
  · intro h
    obtain ⟨ls, hreads⟩ := exists_reads h
    obtain ⟨ts, trees, hts, rfl, hnodes⟩ := hreads.derivation rfl
    exact ⟨trees, tokenises_iff_scans.2 hts, hnodes⟩
  · rintro ⟨trees, htokens, rfl⟩
    exact parseFrom_tokens trees (tokenises_iff_scans.1 htokens)

/-- **The parser accepts exactly the grammar.** A source is a stylesheet exactly if the tokens
that it is cut into, in one way at most, are a sentence; its nodes are those of the derivation.
Every other source is refused. -/
theorem parse_accepts (source : String) :
    (∀ ts ts', Tokenises [] source.toList ts → Tokenises [] source.toList ts' → ts = ts') ∧
    (∀ sheet, parse source = .ok sheet ↔
      ∃ trees, Tokenises [] source.toList (tokensOf trees) ∧ sheet = .ofNodes (nodesOf trees)) ∧
    ((∃ e, parse source = .error e) ↔ ¬ ∃ trees, Tokenises [] source.toList (tokensOf trees)) := by
  have accepts : ∀ sheet, parse source = .ok sheet ↔
      ∃ trees, Tokenises [] source.toList (tokensOf trees) ∧ sheet = .ofNodes (nodesOf trees) := by
    intro sheet
    rw [parse_eq_ok_iff]
    simp only [parseNodes_eq_ok_iff_tokenises]
    constructor
    · rintro ⟨_, ⟨trees, htokens, rfl⟩, rfl⟩
      exact ⟨trees, htokens, rfl⟩
    · rintro ⟨trees, htokens, rfl⟩
      exact ⟨_, ⟨trees, htokens, rfl⟩, rfl⟩
  refine ⟨fun _ _ h h' => h.eq h', accepts, ?_⟩
  cases hparse : parse source with
  | error e =>
    refine ⟨?_, fun _ => ⟨e, rfl⟩⟩
    rintro - ⟨trees, htokens⟩
    have := (accepts _).2 ⟨trees, htokens, rfl⟩
    rw [hparse] at this
    cases this
  | ok sheet =>
    obtain ⟨trees, htokens, -⟩ := (accepts sheet).1 hparse
    exact ⟨nofun, fun hnone => absurd ⟨trees, htokens⟩ hnone⟩

/-- A comment, a rule with a spare semicolon and no last one, and a block in a block. -/
def nestedSource : String := "/*a*/b\x7b;c:d;e:\x7d@f g\x7b h\x7bi\x7d \x7d"

def nestedSheet : Stylesheet where
  nodes :=
    [.comment { text := "a", id := 1 },
     .rule
      { selectors := ["b"]
        body := [.declaration ⟨"c", "d", 3⟩, .declaration ⟨"e", "", 4⟩]
        id := 2 },
     .atRule { name := "f", prelude := "g", block := some " h\x7bi\x7d ", id := 5 }]
  lastId := 5

theorem parse_accepts_nested :
    (∃ trees, Tokenises [] nestedSource.toList (tokensOf trees) ∧
      nestedSheet = .ofNodes (nodesOf trees)) ∧
    ¬ ∃ trees, Tokenises [] "a\x7bb".toList (tokensOf trees) := by
  have accepted : parse nestedSource = .ok nestedSheet := by decide +kernel
  have refused : (parse "a\x7bb").toOption = none := by decide +kernel
  refine ⟨((parse_accepts nestedSource).2.1 nestedSheet).1 accepted, ?_⟩
  refine (parse_accepts "a\x7bb").2.2.1 ?_
  cases hparse : parse "a\x7bb" with
  | error e => exact ⟨e, rfl⟩
  | ok sheet =>
    rw [hparse] at refused
    cases refused

end Spriting.Css

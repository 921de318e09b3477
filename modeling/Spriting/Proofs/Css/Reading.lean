import Spriting.Css.Parser

/-!
# Runs of the parser

`Reads p s ts ns` says that from `p` the source `s` is read to its end, that the
lexemes on the way are `ts`, and that they finish the nodes `ns`.  What holds of
every sheet that can be read is proved by induction on it.

* `parseFrom_eq_ok_iff`: the parser accepts what is read so, and answers the nodes;
* `lexemesFrom`: the lexemes on the way;
* `Pending.shift_eq_some_iff`: what a lexeme makes of what is open, case by case;
* `Reads.first_node`: what is open becomes the first node;
* `unnumbered_of_parseNodes`: no node comes with an id.
-/

namespace Spriting.Css

inductive Reads : Pending → List Char → List (Terminal × List Char) → List Node → Prop where
  | done : Reads .nothing [] [] []
  | gap {p : Pending} {s g r : List Char} {ts : List (Terminal × List Char)} {ns : List Node} :
    gap.read s = some (g, r) → Reads (p.skip g) r ts ns → Reads p s ts ns
  | lexeme {p p' : Pending} {s l r : List Char} {t : Terminal} {node? : Option Node}
      {ts : List (Terminal × List Char)} {ns : List Node} :
    gap.read s = none → firstLexeme p.expected s = some (t, l, r) →
    p.shift l t = some (node?, p') → Reads p' r ts ns →
    Reads p s ((t, l) :: ts) (node?.toList ++ ns)

/-! ## One step of the loop -/

theorem parseFrom_nil (p : Pending) :
    parseFrom p [] = if p = .nothing then .ok [] else .error (.ending, []) := by
  rw [parseFrom, if_pos rfl]

theorem parseFrom_gap {p : Pending} {s g r : List Char} (h : gap.read s = some (g, r)) :
    parseFrom p s = parseFrom (p.skip g) r := by
  have hs : s ≠ [] := by
    rintro rfl
    cases h
  rw [parseFrom, if_neg hs]
  split
  · rename_i h'
    rw [h] at h'
    cases h'
    rfl
  · rename_i h'
    rw [h] at h'
    cases h'

theorem parseFrom_lexeme {p p' : Pending} {s l r : List Char} {t : Terminal} {node? : Option Node}
    (hg : gap.read s = none) (hl : firstLexeme p.expected s = some (t, l, r))
    (hp : p.shift l t = some (node?, p')) :
    parseFrom p s = (parseFrom p' r).map (node?.toList ++ ·) := by
  have hs : s ≠ [] := by
    rintro rfl
    exact Nat.not_lt_zero _ (t.reader.length_rest_lt (firstLexeme_eq_some hl).2)
  rw [parseFrom, if_neg hs]
  split
  · rename_i h'
    rw [hg] at h'
    cases h'
  · split
    · rename_i h'
      rw [hl] at h'
      cases h'
    · rename_i h'
      rw [hl] at h'
      cases h'
      rw [hp]

theorem Reads.parseFrom_eq {p : Pending} {s : List Char} {ts : List (Terminal × List Char)}
    {ns : List Node} (h : Reads p s ts ns) : parseFrom p s = .ok ns := by
  induction h with
  | done => rw [parseFrom_nil, if_pos rfl]
  | gap hg _ ih => rw [parseFrom_gap hg, ih]
  | lexeme hg hl hp _ ih =>
    rw [parseFrom_lexeme hg hl hp, ih]
    rfl

theorem exists_reads {p : Pending} {s : List Char} {ns : List Node} (h : parseFrom p s = .ok ns) :
    ∃ ts, Reads p s ts ns := by
  fun_induction parseFrom p s generalizing ns with
  | case1 =>
    cases h
    exact ⟨[], .done⟩
  | case2 => cases h
  | case3 p s _ g r hg ih =>
    obtain ⟨ts, hreads⟩ := ih h
    exact ⟨ts, .gap hg hreads⟩
  | case4 => cases h
  | case5 => cases h
  | case6 p s _ hg t l r hl node? p' hp ih =>
    cases hrest : parseFrom p' r with
    | error e =>
      rw [hrest] at h
      cases h
    | ok rest =>
      rw [hrest] at h
      cases h
      obtain ⟨ts, hreads⟩ := ih hrest
      exact ⟨(t, l) :: ts, .lexeme hg hl hp hreads⟩

theorem parseFrom_eq_ok_iff {p : Pending} {s : List Char} {ns : List Node} :
    parseFrom p s = .ok ns ↔ ∃ ts, Reads p s ts ns :=
  ⟨exists_reads, fun ⟨_, h⟩ => h.parseFrom_eq⟩

theorem parseNodes_eq_ok_iff_parseFrom {s : List Char} {ns : List Node} :
    parseNodes s = .ok ns ↔ parseFrom .nothing s = .ok ns := by
  rw [parseNodes]
  cases parseFrom .nothing s with
  | error e => exact ⟨nofun, nofun⟩
  | ok ns' => exact ⟨fun h => by cases h; rfl, fun h => by cases h; rfl⟩

theorem parseNodes_eq_ok_iff {s : List Char} {ns : List Node} :
    parseNodes s = .ok ns ↔ ∃ ts, Reads .nothing s ts ns :=
  parseNodes_eq_ok_iff_parseFrom.trans parseFrom_eq_ok_iff

theorem parse_eq_ok_iff {source : String} {sheet : Stylesheet} :
    parse source = .ok sheet ↔
      ∃ ns, parseNodes source.toList = .ok ns ∧ Stylesheet.ofNodes ns = sheet := by
  rw [parse]
  cases parseNodes source.toList <;> simp [Except.map]

/-! ## Lexemes of a source -/

/-- The lexemes that are read, up to the first error. -/
def lexemesFrom (p : Pending) (s : List Char) : List (Terminal × List Char) :=
  match _hg : gap.read s with
  | some (g, r) => lexemesFrom (p.skip g) r
  | none =>
    match _hl : firstLexeme p.expected s with
    | none => []
    | some (t, l, r) =>
      match p.shift l t with
      | none => []
      | some (_, p') => (t, l) :: lexemesFrom p' r
termination_by s.length
decreasing_by
  · exact gap.length_rest_lt _hg
  · exact t.reader.length_rest_lt (firstLexeme_eq_some _hl).2

theorem Reads.lexemesFrom_eq {p : Pending} {s : List Char} {ts : List (Terminal × List Char)}
    {ns : List Node} (h : Reads p s ts ns) : lexemesFrom p s = ts := by
  induction h with
  | done =>
    rw [lexemesFrom]
    rfl
  | gap hg _ ih =>
    rw [lexemesFrom]
    split
    · rename_i h'
      rw [hg] at h'
      cases h'
      exact ih
    · rename_i h'
      rw [hg] at h'
      cases h'
  | lexeme hg hl hp _ ih =>
    rw [lexemesFrom]
    split
    · rename_i h'
      rw [hg] at h'
      cases h'
    · split
      · rename_i h'
        rw [hl] at h'
        cases h'
      · rename_i h'
        rw [hl] at h'
        cases h'
        rw [hp]
        exact congrArg _ ih

/-- The selector lists of a source, as they stand in front of the braces. -/
def selectorTexts (source : String) : List (List Char) :=
  (lexemesFrom .nothing source.toList).filterMap fun p => if p.1 = .selector then some p.2 else none

theorem Reads.mem_selectorTexts {source : String} {ts : List (Terminal × List Char)}
    {ns : List Node} (h : Reads .nothing source.toList ts ns) {l : List Char} :
    l ∈ selectorTexts source ↔ (.selector, l) ∈ ts := by
  simp [selectorTexts, h.lexemesFrom_eq]

/-! ## Shifting a lexeme -/

namespace Pending

/-- A rule of which the body may end here, with these items, last first. -/
inductive EndsBody : Pending → List Char → List BodyItem → Prop where
  | body {s : List Char} {items : List BodyItem} : EndsBody (body s items) s items
  | colon {s n : List Char} {items : List BodyItem} :
    EndsBody (colon s items n) s (declarationOf n [] :: items)
  | value {s n v : List Char} {items : List BodyItem} :
    EndsBody (value s items n v) s (declarationOf n v :: items)

/-- An at-rule of which the head may end here, with this name and this prelude. -/
inductive EndsHead : Pending → List Char → List Char → Prop where
  | keyword {n : List Char} : EndsHead (keyword n) n []
  | prelude {n q : List Char} : EndsHead (prelude n q) n q

/-- What the lexeme `l` makes of what is open. -/
inductive Shifts (l : List Char) : Pending → Terminal → Option Node → Pending → Prop where
  | selector : Shifts l nothing .selector none (selector l)
  | comment : Shifts l nothing .comment (some (.comment (commentOf l))) nothing
  | atKeyword : Shifts l nothing .atKeyword none (keyword (l.drop 1))
  | openBody {s : List Char} : Shifts l (selector s) .openBrace none (body s [])
  | property {s : List Char} {items : List BodyItem} :
    Shifts l (body s items) .property none (property s items l)
  | bodyComment {s : List Char} {items : List BodyItem} :
    Shifts l (body s items) .comment none (body s (.comment (commentOf l) :: items))
  | colon {s n : List Char} {items : List BodyItem} :
    Shifts l (property s items n) .colon none (colon s items n)
  | value {s n : List Char} {items : List BodyItem} :
    Shifts l (colon s items n) .value none (value s items n l)
  | semicolon {p : Pending} {s : List Char} {items : List BodyItem} :
    p.EndsBody s items → Shifts l p .semicolon none (body s items)
  | closeBody {p : Pending} {s : List Char} {items : List BodyItem} :
    p.EndsBody s items → Shifts l p .closeBrace (some (ruleOf s items)) nothing
  | prelude {n : List Char} : Shifts l (keyword n) .prelude none (prelude n l)
  | statement {p : Pending} {n q : List Char} :
    p.EndsHead n q → Shifts l p .semicolon (some (atRuleOf n q none)) nothing
  | openBlock {p : Pending} {n q : List Char} :
    p.EndsHead n q → Shifts l p .openBrace none (block n q 0 [])
  | blockText {n q : List Char} {depth : Nat} {pieces : List (List Char)} :
    Shifts l (block n q depth pieces) .blockText none (block n q depth (l :: pieces))
  | openInner {n q : List Char} {depth : Nat} {pieces : List (List Char)} :
    Shifts l (block n q depth pieces) .openBrace none (block n q (depth + 1) (l :: pieces))
  | closeInner {n q : List Char} {depth : Nat} {pieces : List (List Char)} :
    Shifts l (block n q (depth + 1) pieces) .closeBrace none (block n q depth (l :: pieces))
  | closeBlock {n q : List Char} {pieces : List (List Char)} :
    Shifts l (block n q 0 pieces) .closeBrace (some (atRuleOf n q (some (joined pieces)))) nothing

variable {p q : Pending} {l s n x : List Char} {items : List BodyItem} {t : Terminal}
  {node? : Option Node}

/-- The cases of `shift`. -/
theorem shift_eq_some_iff : p.shift l t = some (node?, q) ↔ p.Shifts l t node? q := by
  constructor
  · intro h
    unfold shift at h
    split at h <;> cases h <;> constructor
    -- the places where a body or a head may end
    all_goals constructor
  · intro h
    cases h with
    | semicolon hbody => cases hbody <;> rfl
    | closeBody hbody => cases hbody <;> rfl
    | statement hhead => cases hhead <;> rfl
    | openBlock hhead => cases hhead <;> rfl
    | _ => rfl

theorem Shifts.expected (h : p.Shifts l t node? q) : t ∈ p.expected :=
  shift_isSome.1 (by rw [shift_eq_some_iff.2 h]; rfl)

end Pending

/-- What stays open until a node is finished has that node read first. -/
theorem Reads.first_node {Q : Pending → Prop} {P : Node → Prop} {p : Pending} {s : List Char}
    {ts : List (Terminal × List Char)} {ns : List Node} (h : Reads p s ts ns)
    (hnothing : ¬ Q .nothing) (hskip : ∀ p g, Q p → Q (p.skip g))
    (hshift : ∀ {p p' : Pending} {l : List Char} {t : Terminal} {node? : Option Node},
      Q p → p.Shifts l t node? p' → (node? = none ∧ Q p') ∨ ∃ n, node? = some n ∧ P n)
    (hp : Q p) : ∃ n rest, ns = n :: rest ∧ P n := by
  induction h with
  | done => exact absurd hp hnothing
  | gap _ _ ih => exact ih (hskip _ _ hp)
  | lexeme _ _ hs _ ih =>
    rcases hshift hp (Pending.shift_eq_some_iff.1 hs) with ⟨rfl, hp'⟩ | ⟨n, rfl, hn⟩
    · exact ih hp'
    · exact ⟨n, _, rfl, hn⟩

/-! ## Nodes without ids -/

/-- What has been read of the open node has no ids. -/
def Pending.Unnumbered : Pending → Prop
  | body _ items => ∀ item ∈ items, item.id = 0
  | property _ items _ => ∀ item ∈ items, item.id = 0
  | colon _ items _ => ∀ item ∈ items, item.id = 0
  | value _ items _ _ => ∀ item ∈ items, item.id = 0
  | _ => True

/-- Neither a node nor an item of its body has an id. -/
def Node.Unnumbered (n : Node) : Prop := ∀ i ∈ n.ids, i = 0

theorem Pending.Unnumbered.skip {p : Pending} (h : p.Unnumbered) (g : List Char) :
    (p.skip g).Unnumbered := by
  cases p <;> exact h

theorem ruleOf_unnumbered {s : List Char} {items : List BodyItem}
    (h : ∀ item ∈ items, item.id = 0) : (ruleOf s items).Unnumbered := by
  simpa [Node.Unnumbered, ruleOf, Node.ids] using h

theorem declarationOf_id (n v : List Char) : (declarationOf n v).id = 0 := rfl

theorem Pending.Unnumbered.endsBody {p : Pending} {s : List Char} {items : List BodyItem}
    (h : p.Unnumbered) (hbody : p.EndsBody s items) : ∀ item ∈ items, item.id = 0 := by
  cases hbody with
  | body => exact h
  | colon => exact List.forall_mem_cons.2 ⟨declarationOf_id _ _, h⟩
  | value => exact List.forall_mem_cons.2 ⟨declarationOf_id _ _, h⟩

theorem Pending.Unnumbered.shift {p p' : Pending} {l : List Char} {t : Terminal}
    {node? : Option Node} (h : p.Unnumbered) (hs : p.shift l t = some (node?, p')) :
    p'.Unnumbered ∧ ∀ n ∈ node?, n.Unnumbered := by
  cases Pending.shift_eq_some_iff.1 hs with
  | comment => exact ⟨trivial, by simp [Node.Unnumbered, Node.ids, commentOf]⟩
  | openBody => exact ⟨nofun, nofun⟩
  | property => exact ⟨h, nofun⟩
  | bodyComment => exact ⟨List.forall_mem_cons.2 ⟨rfl, h⟩, nofun⟩
  | colon => exact ⟨h, nofun⟩
  | value => exact ⟨h, nofun⟩
  | semicolon hbody => exact ⟨h.endsBody hbody, nofun⟩
  | closeBody hbody =>
    refine ⟨trivial, ?_⟩
    rintro _ ⟨⟩
    exact ruleOf_unnumbered (h.endsBody hbody)
  | _ => exact ⟨trivial, by simp [Node.Unnumbered, Node.ids, atRuleOf]⟩

theorem Reads.unnumbered {p : Pending} {s : List Char} {ts : List (Terminal × List Char)}
    {ns : List Node} (h : Reads p s ts ns) (hp : p.Unnumbered) : ∀ n ∈ ns, n.Unnumbered := by
  induction h with
  | done => simp
  | gap _ _ ih => exact ih (hp.skip _)
  | lexeme _ _ hs _ ih =>
    obtain ⟨hp', hnode⟩ := hp.shift hs
    intro n hn
    rcases List.mem_append.1 hn with hn | hn
    · exact hnode n (by simpa using hn)
    · exact ih hp' n hn

theorem unnumbered_of_parseNodes {s : List Char} {ns : List Node} (h : parseNodes s = .ok ns) :
    ∀ n ∈ ns, n.Unnumbered := by
  obtain ⟨ts, hr⟩ := parseNodes_eq_ok_iff.1 h
  exact hr.unnumbered trivial

end Spriting.Css

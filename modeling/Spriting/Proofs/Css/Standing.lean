import Spriting.Proofs.Css.Blocks
import Spriting.Proofs.Css.Quietness

/-!
# Nodes that are read back

The pretty form of a node is read as that node again, whatever text follows it, as
long as that text closes no comment which a prelude left open.

* `Node.Stands`: what it means to be read back;
* `rule_stands`, `comment_stands`, `statement_stands`, `blockRule_stands`: every node that the
  parser makes is.
-/

namespace Spriting.Css

open Text Reader

/-- `l` is a lexeme of the class `t` in some source. -/
def Terminal.Takes (t : Terminal) (l : List Char) : Prop := ∃ s r, t.reader.read s = some (l, r)

/-- Ink and what goes on from it are a value. -/
theorem value_takes {c : Char} {l : List Char} (hink : isBlank c = false) (hc : c ∉ valueStops)
    (hl : Chain valuePiece l [';']) : Terminal.value.Takes (c :: l) := by
  refine ⟨c :: l ++ [';'], [';'], (followedBy_eq_some_iff (a := valueStart)).2
    ⟨[c], l, rfl, ?_, hl, valuePiece_stops [] (.inl rfl)⟩⟩
  have plain := hc
  simp only [valueStops, List.mem_cons, List.not_mem_nil, or_false, not_or] at plain
  rw [valueStart, List.cons_append, orElse_of_none]
  · exact char_cons _ (by simp [hink, hc])
  · exact stringOrGroup_declines _ (by simp [IsQuote, plain]) plain.2.2.2.2.2

/-! ## Items of a body -/

/-- The items that the parser makes. -/
inductive BodyItem.Written : BodyItem → Prop where
  | declaration {n v : List Char} :
    Terminal.property.Takes n → v = [] ∨ Terminal.value.Takes v → Written (declarationOf n v)
  | comment {l : List Char} : Terminal.comment.Takes l → Written (.comment (commentOf l))

theorem declarationOf_trim (n v : List Char) :
    declarationOf (trim n) (trim v) = declarationOf n v := by
  rw [declarationOf, declarationOf, trim_trim, trim_trim]

variable {selector : List Char} {items : List BodyItem}

/-- A name and a colon open a declaration. -/
theorem property_opens {n : List Char} (hn : Terminal.property.Takes n) (r : List Char) :
    parseFrom (.body selector items) (trim n ++ ':' :: r) =
      parseFrom (.colon selector items (trim n)) r := by
  obtain ⟨s, r₀, hn⟩ := hn
  rw [parseFrom_shift (t := .property) (q := .property selector items (trim n))
      (property_reads_back hn) rfl,
    parseFrom_mark (t := .colon) (q := .colon selector items (trim n)) rfl rfl]

/-- In front of a stop, a value stands behind the colon, or nothing does. -/
theorem value_reads {n v r : List Char} {c : Char} (hv : v = [] ∨ Terminal.value.Takes v)
    (hc : IsStop c) :
    v = [] ∨ parseFrom (.colon selector items n) (trim v ++ c :: r) =
      parseFrom (.value selector items n (trim v)) (c :: r) := by
  rcases hv with rfl | ⟨s, r₀, hv⟩
  · exact .inl rfl
  · exact .inr (parseFrom_shift (value_reads_back hv hc) rfl)

theorem value_ends {n v : List Char} (hv : v = [] ∨ Terminal.value.Takes v) (r : List Char) :
    parseFrom (.colon selector items n) (trim v ++ ';' :: r) =
      parseFrom (.body selector (declarationOf n (trim v) :: items)) r := by
  rcases value_reads hv (.inl rfl) with rfl | hread
  · exact parseFrom_mark (p := .colon selector items n) (t := .semicolon) rfl rfl
  · rw [hread]
    exact parseFrom_mark (t := .semicolon) rfl rfl

theorem declaration_reads_back {n v : List Char} (hn : Terminal.property.Takes n)
    (hv : v = [] ∨ Terminal.value.Takes v) (r : List Char) :
    parseFrom (.body selector items) ((declarationOf n v).chars ++ r) =
      parseFrom (.body selector (declarationOf n v :: items)) r := by
  rw [chars_declarationOf, List.append_assoc, List.cons_append, List.cons_append,
    List.append_assoc, List.singleton_append, property_opens hn,
    parseFrom_skip (fun _ => rfl) (by decide), value_ends hv, declarationOf_trim]

/-- A comment is written as the lexeme that it was. -/
theorem comment_chars {l : List Char} (h : Terminal.comment.Takes l) :
    (BodyItem.comment (commentOf l)).chars = l := by
  obtain ⟨s, r, h⟩ := h
  rw [chars_comment]
  exact comment_eq h

theorem comment_reads_back {l : List Char} (h : Terminal.comment.Takes l) (r : List Char) :
    Terminal.comment.reader.read (l ++ r) = some (l, r) := by
  obtain ⟨s, r₀, h⟩ := h
  obtain ⟨rfl, -⟩ := Terminal.comment.reader.splits h
  exact comment_local _ _ _ h r

theorem item_reads_back {item : BodyItem} (h : item.Written) (r : List Char) :
    parseFrom (.body selector items) (item.chars ++ r) =
      parseFrom (.body selector (item :: items)) r := by
  cases h with
  | declaration hn hv => exact declaration_reads_back hn hv r
  | comment hl =>
    rw [comment_chars hl]
    exact parseFrom_shift (p := .body selector items) (t := .comment) (comment_reads_back hl r) rfl

theorem lines_read_back {more : List BodyItem} (h : ∀ i ∈ more, i.Written) (r : List Char) :
    parseFrom (.body selector items) (more.flatMap BodyItem.line ++ r) =
      parseFrom (.body selector (more.reverse ++ items)) r := by
  induction more generalizing items with
  | nil => rfl
  | cons item more ih =>
    obtain ⟨hitem, hmore⟩ := List.forall_mem_cons.1 h
    rw [List.flatMap_cons, List.append_assoc, BodyItem.line, List.cons_append, List.cons_append,
      List.cons_append, parseFrom_skip (fun _ => rfl) (by decide),
      parseFrom_skip (fun _ => rfl) (by decide), parseFrom_skip (fun _ => rfl) (by decide),
      item_reads_back hitem, ih hmore]
    simp

/-! ## Nodes -/

/-- In front of any text that closes no comment left open by `r`, the pretty form of the node
is read as the node. -/
def Node.Stands (n : Node) (r : List Char) : Prop :=
  ∀ t, (Quiet r → Quiet t) →
    parseFrom .nothing (n.chars ++ t) = (parseFrom .nothing t).map (n :: ·)

/-- The rule of these selectors and items. -/
def listedRule (es : List (List Char)) (body : List BodyItem) : Node :=
  .rule { selectors := es.map String.ofList, body }

theorem chars_listedRule {es : List (List Char)} {body : List BodyItem} (hne : es ≠ []) :
    (listedRule es body).chars =
      spread es ++ '\x7b' :: (body.flatMap BodyItem.line ++ ['\n', '\x7d']) := by
  rw [listedRule, chars_rule, spread_eq hne]
  simp [Function.comp_def]

/-- From the brace on, a rule is what its selector list and its body make of it. -/
theorem opened_rule_reads_back {l : List Char} {body : List BodyItem} (hi : ∀ i ∈ body, i.Written)
    (t : List Char) :
    parseFrom (.selector l) ('\x7b' :: (body.flatMap BodyItem.line ++ '\n' :: '\x7d' :: t)) =
      (parseFrom .nothing t).map (ruleOf l body.reverse :: ·) := by
  rw [parseFrom_mark (t := .openBrace) (q := .body l []) rfl rfl, lines_read_back hi,
    parseFrom_skip (fun _ => rfl) (by decide),
    parseFrom_end (t := .closeBrace) (n := ruleOf l (body.reverse ++ [])) rfl rfl]
  simp

/-- A rule that starts with a selector is read as a rule; its selectors are cut anew. -/
theorem rule_reads_back {es : List (List Char)} {body : List BodyItem} (hl : Listed es)
    (hhead : Headed es) (hi : ∀ i ∈ body, i.Written) (t : List Char) :
    parseFrom .nothing ((listedRule es body).chars ++ t) =
      (parseFrom .nothing t).map (ruleOf (spread es) body.reverse :: ·) := by
  have hchars : (listedRule es body).chars ++ t =
      spread es ++ '\x7b' :: (body.flatMap BodyItem.line ++ '\n' :: '\x7d' :: t) := by
    rw [chars_listedRule hhead.ne_nil]
    simp
  rw [hchars, parseFrom_shift (hl.reads_spread hhead _ _ (.inr (.inl rfl))) rfl,
    opened_rule_reads_back hi]

theorem ruleOf_eq {l : List Char} {es : List (List Char)} {body : List BodyItem}
    (h : splitSelectors l = es.map String.ofList) : ruleOf l body.reverse = listedRule es body := by
  rw [ruleOf, h, List.reverse_reverse, listedRule]

theorem rule_stands {es : List (List Char)} {body : List BodyItem} (hl : Listed es)
    (hhead : Headed es) (hcut : Cut {} es) (hi : ∀ i ∈ body, i.Written) (r : List Char) :
    (listedRule es body).Stands r := by
  intro t _
  rw [rule_reads_back hl hhead hi,
    ruleOf_eq ((splitSelectors_spread_iff hl.trimmed hhead.ne_nil).2 hcut)]

theorem comment_stands {l : List Char} (h : Terminal.comment.Takes l) (r : List Char) :
    (Node.comment (commentOf l)).Stands r := by
  intro t _
  have hchars : (Node.comment (commentOf l)).chars = l := comment_chars h
  rw [hchars]
  exact parseFrom_finish (p := .nothing) (t := .comment) (comment_reads_back h t) rfl

/-! ## At-rules -/

/-- The name that a keyword gives an at-rule. -/
def Keyword (n : List Char) : Prop := ∃ l, Terminal.atKeyword.Takes l ∧ n = l.drop 1

/-- A prelude or none, in front of a source of which `s` is left. -/
def PreludeOf (q s : List Char) : Prop :=
  q = [] ∨ ∃ s₀ r, Terminal.prelude.reader.read s₀ = some (q, r) ∧ (Quiet r → Quiet s)

theorem PreludeOf.drop {q a s : List Char} (h : PreludeOf q (a ++ s)) : PreludeOf q s := by
  rcases h with hq | ⟨s₀, r, hread, hquiet⟩
  · exact .inl hq
  · exact .inr ⟨s₀, r, hread, fun hr => (hquiet hr).right⟩

theorem keyword_reads_back {n : List Char} {c : Char} (h : Keyword n)
    (hc : c = ' ' ∨ c = ';' ∨ c = '\x7b') (s : List Char) :
    parseFrom .nothing ('@' :: (n ++ c :: s)) = parseFrom (.keyword n) (c :: s) := by
  obtain ⟨l, ⟨s₀, r, hl⟩, rfl⟩ := h
  exact parseFrom_shift (p := .nothing) (l := '@' :: l.drop 1)
    (atKeyword_reads_back hl (nameChar_stops _ hc)) rfl

theorem trim_ne_nil_of_prelude {s q r : List Char}
    (h : Terminal.prelude.reader.read s = some (q, r)) : trim q ≠ [] := by
  obtain ⟨x, m, rfl, hx, -⟩ := (followedBy_eq_some_iff (a := valueStart)).1 h
  rw [valueStart_inked.trim_append hx]
  exact List.append_ne_nil_of_left_ne_nil (valueStart.splits hx).2 _

theorem preludeChars_nil : preludeChars [] = [] := rfl

theorem preludeChars_of_prelude {s q r : List Char}
    (h : Terminal.prelude.reader.read s = some (q, r)) : preludeChars q = ' ' :: trim q :=
  if_neg (trim_ne_nil_of_prelude h)

theorem atRuleOf_trim (n q : List Char) (block : Option (List Char)) :
    atRuleOf n (trim q) block = atRuleOf n q block := by
  rw [atRuleOf, atRuleOf, trim_trim]

variable {n q : List Char}

/-- An at-rule without a block is read back. -/
theorem statement_stands {r : List Char} (hn : Keyword n) (hq : PreludeOf q r) :
    (atRuleOf n q none).Stands r := by
  intro t ht
  rcases hq with rfl | ⟨s₀, r₀, hread, hquiet⟩
  · have hchars : (atRuleOf n [] none).chars ++ t = '@' :: (n ++ ';' :: t) := by
      simp [chars_atRuleOf, preludeChars_nil, blockChars]
    rw [hchars, keyword_reads_back hn (by decide)]
    exact parseFrom_end (p := .keyword n) (t := .semicolon) rfl rfl
  · have hchars : (atRuleOf n q none).chars ++ t = '@' :: (n ++ ' ' :: (trim q ++ ';' :: t)) := by
      simp [chars_atRuleOf, preludeChars_of_prelude hread, blockChars]
    have shields : Shields r₀ (';' :: t) :=
      ⟨by simp, fun h => (ht (hquiet h)).cons (by decide)⟩
    rw [hchars, keyword_reads_back hn (by decide), parseFrom_skip (fun _ => rfl) (by decide),
      parseFrom_shift (t := .prelude) (q := .prelude n (trim q))
        (prelude_reads_back hread (.inl rfl) shields) rfl,
      ← atRuleOf_trim]
    exact parseFrom_end (p := .prelude n (trim q)) (t := .semicolon) rfl rfl

theorem chars_blockRule {w : List Char} (hw : BlockRest 0 w) (t : List Char) :
    (atRuleOf n q (some w.dropLast)).chars ++ t =
      '@' :: (n ++ (preludeChars q ++ ' ' :: '\x7b' :: (w ++ t))) := by
  have hblock : blockChars (some w.dropLast) = ' ' :: '\x7b' :: w := by
    rw [blockChars, ← hw.eq_dropLast]
  simp [chars_atRuleOf, hblock]

theorem BlockRest.quiet_append {w r t : List Char} (hw : BlockRest 0 w)
    (ht : Quiet r → Quiet t) (h : Quiet (w ++ r)) : Quiet (w ++ t) := by
  have brace : w.getLast? = some '\x7d' := by
    rw [hw.eq_dropLast]
    exact List.getLast?_concat
  refine Css.quiet_append.2 ⟨h.left, ht h.right, ?_⟩
  rintro ⟨hstar, -⟩
  rw [brace] at hstar
  cases hstar

/-- An at-rule with a block is read back. -/
theorem blockRule_stands {w r : List Char} (hn : Keyword n) (hw : BlockRest 0 w)
    (hq : PreludeOf q (w ++ r)) : (atRuleOf n q (some w.dropLast)).Stands r := by
  intro t ht
  rw [chars_blockRule hw]
  rcases hq with rfl | ⟨s₀, r₀, hread, hquiet⟩
  · rw [preludeChars_nil, List.nil_append, keyword_reads_back hn (by decide),
      parseFrom_skip (fun _ => rfl) (by decide),
      parseFrom_mark (p := .keyword n) (t := .openBrace) (q := .block n [] 0 []) rfl rfl]
    exact hw.parseFrom_eq [] t
  · have shields : Shields r₀ (' ' :: '\x7b' :: (w ++ t)) := by
      refine ⟨by simp, fun h => ?_⟩
      exact ((hw.quiet_append ht (hquiet h)).cons (by decide)).cons (by decide)
    -- the reader of preludes takes the space in front of the brace along
    have back := prelude_reads_back_space hread (.inr (.inl rfl)) shields
    have assoc : trim q ++ ' ' :: '\x7b' :: (w ++ t) = (trim q ++ [' ']) ++ '\x7b' :: (w ++ t) := by
      simp
    have spaced : trim (trim q ++ [' ']) = trim q := by
      rw [trim_append_of_blank (by decide), trim_trim]
    rw [assoc] at back
    rw [preludeChars_of_prelude hread, List.cons_append, keyword_reads_back hn (by decide),
      parseFrom_skip (fun _ => rfl) (by decide), assoc,
      parseFrom_shift (t := .prelude) (q := .prelude n (trim q ++ [' '])) back rfl,
      parseFrom_mark (t := .openBrace) (q := .block n (trim q ++ [' ']) 0 []) rfl rfl,
      hw.parseFrom_eq, ← atRuleOf_trim, spaced, atRuleOf_trim]
    rfl

end Spriting.Css

import Spriting.Proofs.Css.RoundTrip

/-!
# When the pretty form says what it was written from

Of nodes that follow one another only a rule can be read as something else: one without
selectors, one that starts as a comment or an at-rule does, and one whose selectors are cut
at other commas, because a selector in front of the last leaves a string or a bracket open.

* `Listed.cut_iff`: where a list of selectors is cut as it was written;
* `Reads.rule_starts`: what a source starts with of which the first node is a rule;
* `Written.reads_back_iff`: the nodes are read back exactly if all rules are legible;
* `parse_bare_iff`: the same of a sheet and its ids.
-/

namespace Spriting.Css

open Text Reader

variable {P Q : List (List Char) → Prop} {ns ms : List Node}

/-! ## Rules among the nodes -/

/-- What the parser makes of a rule. -/
theorem made_rule_iff {s : List Char} {r : Rule} :
    (Node.rule r).Made P s ↔
      r.id = 0 ∧ Listed (r.selectors.map String.toList) ∧ P (r.selectors.map String.toList) ∧
        ∀ i ∈ r.body, i.Written := by
  constructor
  · intro h
    generalize hn : Node.rule r = n at h
    cases h with
    | @rule es body hl hP hi =>
      cases hn
      have same : (es.map String.ofList).map String.toList = es := by simp
      exact ⟨rfl, same.symm ▸ hl, same.symm ▸ hP, hi⟩
    | comment => cases hn
    | statement => cases hn
    | block => cases hn
  · rintro ⟨hid, hl, hP, hi⟩
    obtain ⟨selectors, body, id⟩ := r
    obtain rfl : id = 0 := hid
    have same : (selectors.map String.toList).map String.ofList = selectors := by simp
    have made := Node.Made.rule (r := s) hl hP hi
    rwa [listedRule, same] at made

theorem Node.Made.imp {n : Node} {s : List Char} (h : n.Made P s) (hPQ : ∀ es, P es → Q es) :
    n.Made Q s := by
  cases h with
  | rule hl hP hi => exact .rule hl (hPQ _ hP) hi
  | comment hl => exact .comment hl
  | statement hn hq => exact .statement hn hq
  | block hn hw hq => exact .block hn hw hq

theorem Written.imp (h : Written P ns) (hPQ : ∀ es, P es → Q es) : Written Q ns := by
  induction h with
  | nil => exact .nil
  | cons hn hquiet _ ih => exact .cons (hn.imp hPQ) hquiet ih

/-- The selectors of a rule among nodes that follow one another. -/
theorem Written.rule {r : Rule} (h : Written P ns) (hr : .rule r ∈ ns) :
    Listed (r.selectors.map String.toList) ∧ P (r.selectors.map String.toList) := by
  induction h with
  | nil => cases hr
  | cons hn _ _ ih =>
    rcases List.mem_cons.1 hr with rfl | hr
    · obtain ⟨-, hl, hP, -⟩ := made_rule_iff.1 hn
      exact ⟨hl, hP⟩
    · exact ih hr

/-- Nodes that take the places of nodes that follow one another follow one another too, if each
is made and quiet where the one in its place was. -/
theorem Written.replace (h : Written P ns)
    (hsame : List.Forall₂ (fun n m => (∀ s, n.Made P s → m.Made P s) ∧ (n.Quieted → m.Quieted))
      ns ms) : Written P ms := by
  induction hsame with
  | nil => exact .nil
  | @cons n m ns ms hnm hrest ih =>
    cases h with
    | cons hn hquiet hns =>
      refine .cons (hnm.1 _ hn) (fun hr m hm => ?_) (ih hns)
      obtain ⟨n, hn, hnm⟩ := exists_of_mem_forall₂ hrest hm
      exact hnm.2 (hquiet hr n hn)

/-- Rules in front of nodes that follow one another. -/
theorem Written.rules_append {front : List Rule} (h : Written P ns)
    (hfront : ∀ r ∈ front, ∀ s, (Node.rule r).Made P s) : Written P (front.map .rule ++ ns) := by
  induction front with
  | nil => exact h
  | cons r front ih =>
    obtain ⟨hr, hfront⟩ := List.forall_mem_cons.1 hfront
    -- behind a text that closes a comment nothing has to be quiet
    have loud : ¬ Quiet ['*', '/'] := by simp [Quiet, closeComment]
    exact .cons (hr ['*', '/']) (fun hquiet => absurd hquiet loud) (ih hfront)

/-- The nodes of a sheet that has been read follow one another, and its selectors are cut where
they were written. -/
theorem parse_written {source : String} {sheet : Stylesheet} (h : parse source = .ok sheet) :
    Written (Cut {}) (sheet.nodes.map Node.bare) := by
  obtain ⟨ns, hns, rfl⟩ := parse_eq_ok_iff.1 h
  obtain ⟨ts, hreads⟩ := parseNodes_eq_ok_iff.1 hns
  rw [ofNodes_bare (unnumbered_of_parseNodes hns)]
  exact hreads.written trivial fun l _ _ => (cut_pieces {} l).entries Nesting.proper_start

/-- The selectors of a rule of such a sheet. -/
theorem parse_selectors {source : String} {sheet : Stylesheet} {r : Rule}
    (h : parse source = .ok sheet) (hr : r ∈ sheet.rules) :
    Listed (r.selectors.map String.toList) ∧ Cut {} (r.selectors.map String.toList) :=
  (parse_written h).rule (r := r.bare) (mem_map_bare_iff.2 ⟨r, hr, rfl⟩)

/-- The selectors of several rules are a list of selectors again. -/
theorem listed_flatMap {rules : List Rule}
    (h : ∀ r ∈ rules, Listed (r.selectors.map String.toList)) :
    Listed ((rules.flatMap Rule.selectors).map String.toList) := by
  induction rules with
  | nil => exact .nil
  | cons r rules ih =>
    obtain ⟨hr, hrules⟩ := List.forall_mem_cons.1 h
    rw [List.flatMap_cons, List.map_append]
    exact hr.append (ih hrules)

/-! ## Where selectors are cut -/

/-- Behind the text, no string and no bracket is open that the text has opened. -/
def Closed (s : List Char) : Prop := s.foldl Nesting.advance {} = {}

instance (s : List Char) : Decidable (Closed s) := inferInstanceAs (Decidable (_ = _))

theorem Nesting.foldl_of_within {n n' : Nesting} {s : List Char} (h : n.within s = some n') :
    s.foldl Nesting.advance n = n' := by
  induction s generalizing n with
  | nil => exact Option.some.inj h
  | cons c s ih =>
    simp only [Nesting.within, Option.ite_none_left_eq_some] at h
    exact ih h.2

/-- A list of selectors is cut as it was written exactly if each selector but the last closes
what it opens. -/
theorem Listed.cut_iff {es : List (List Char)} (h : Listed es) :
    Cut {} es ↔ ∀ e ∈ es.dropLast, Closed e := by
  have whole := h.whole
  clear h
  induction es with
  | nil => exact ⟨fun _ => nofun, fun _ => trivial⟩
  | cons e es ih =>
    obtain ⟨⟨n, hn⟩, hes⟩ := List.forall_mem_cons.1 whole
    by_cases hlast : es = []
    · subst hlast
      exact ⟨fun _ => nofun, fun _ => ⟨n, hn⟩⟩
    · rw [List.dropLast_cons_of_ne_nil hlast, List.forall_mem_cons, Closed,
        Nesting.foldl_of_within hn]
      refine Iff.trans ?_ (and_congr_right' (ih hes))
      constructor
      · intro hcut
        obtain ⟨n', hn', hrest⟩ := hcut.uncons
        obtain ⟨rfl, hcut⟩ := hrest hlast
        exact ⟨Option.some.inj (hn.symm.trans hn'), hcut⟩
      · rintro ⟨rfl, hcut⟩
        exact .cons hn fun _ => ⟨rfl, hcut⟩

/-! ## Sources that start with a rule -/

/-- An at-rule is open. -/
def Pending.InAtRule : Pending → Prop
  | keyword _ => True
  | prelude _ _ => True
  | block _ _ _ _ => True
  | _ => False

theorem Pending.InAtRule.shift {p p' : Pending} {l : List Char} {t : Terminal} {node? : Option Node}
    (h : p.InAtRule) (hs : p.Shifts l t node? p') :
    (node? = none ∧ p'.InAtRule) ∨ ∃ n, node? = some n ∧ ∃ a, n = .atRule a := by
  cases hs with
  | prelude => exact .inl ⟨rfl, trivial⟩
  | statement => exact .inr ⟨_, rfl, _, rfl⟩
  | openBlock => exact .inl ⟨rfl, trivial⟩
  | blockText => exact .inl ⟨rfl, trivial⟩
  | openInner => exact .inl ⟨rfl, trivial⟩
  | closeInner => exact .inl ⟨rfl, trivial⟩
  | closeBlock => exact .inr ⟨_, rfl, _, rfl⟩
  | semicolon hbody => cases hbody <;> exact h.elim
  | closeBody hbody => cases hbody <;> exact h.elim
  | _ => exact h.elim

/-- What is open of an at-rule becomes an at-rule. -/
theorem Reads.atRule_of_inAtRule {p : Pending} {s : List Char} {ts : List (Terminal × List Char)}
    (h : Reads p s ts ns) (hp : p.InAtRule) : ∃ n rest, ns = n :: rest ∧ ∃ a, n = .atRule a :=
  h.first_node id (fun p _ hp => by cases p <;> exact hp) Pending.InAtRule.shift hp

/-- If the first node of a source is a rule, the source starts with a selector. -/
theorem Reads.rule_starts {s : List Char} {ts : List (Terminal × List Char)} {r : Rule}
    (h : Reads .nothing s ts (.rule r :: ns)) (hgap : ∀ c ∈ s.head?, ¬ IsGap c) :
    ∃ c ∈ s.head?, Leads c := by
  generalize hns : Node.rule r :: ns = all at h
  cases h with
  | done => cases hns
  | gap hread _ =>
    rw [gap_declines hgap] at hread
    cases hread
  | lexeme _ hfirst hs hrest =>
    obtain ⟨ht, hread⟩ := firstLexeme_eq_some hfirst
    simp only [Pending.expected, List.mem_cons, List.not_mem_nil, or_false] at ht
    rcases ht with rfl | rfl | rfl
    · obtain ⟨⟨c, hc, hleads⟩, -⟩ := selector_run hread
      obtain ⟨l, rfl⟩ := List.head?_eq_some_iff.1 hc
      obtain ⟨rfl, -⟩ := Terminal.selector.reader.splits hread
      exact ⟨c, rfl, hleads⟩
    · cases hs
      cases hns
    · cases hs
      obtain ⟨_, rest, rfl, a, rfl⟩ := hrest.atRule_of_inAtRule trivial
      cases hns

/-! ## Reading rules back -/

/-- A rule that starts with no selector is not read as a rule. -/
theorem parseFrom_ne_of_not_headed {es : List (List Char)} {body : List BodyItem} {r : Rule}
    (hl : Listed es) (hhead : ¬ Headed es) (t : List Char) :
    parseFrom .nothing ((listedRule es body).chars ++ t) ≠ .ok (.rule r :: ns) := by
  intro h
  cases es with
  | nil =>
    have hchars : ∃ z, (listedRule [] body).chars ++ t = ' ' :: '\x7b' :: z := by
      rw [listedRule, chars_rule]
      exact ⟨_, rfl⟩
    obtain ⟨z, hz⟩ := hchars
    rw [hz, parseFrom_skip (fun _ => rfl) (by decide)] at h
    obtain ⟨ts, hreads⟩ := exists_reads h
    obtain ⟨c, ⟨⟩, hleads⟩ := hreads.rule_starts (by rintro c ⟨⟩; decide)
    exact absurd hleads (by simp [Leads, IsQuote, selectorStops])
  | cons e es =>
    obtain ⟨htrim, hne⟩ := hl.trimmed e List.mem_cons_self
    obtain ⟨c, y, rfl⟩ := List.exists_cons_of_ne_nil hne
    obtain ⟨z, hz⟩ : ∃ z, (listedRule ((c :: y) :: es) body).chars ++ t = c :: z := by
      obtain ⟨z, hz⟩ := spread_start (c :: y) es
      rw [chars_listedRule (List.cons_ne_nil _ _), hz]
      exact ⟨_, rfl⟩
    rw [hz] at h
    obtain ⟨ts, hreads⟩ := exists_reads h
    have hgap : ∀ d ∈ (c :: z).head?, ¬ IsGap d := by
      rintro d ⟨⟩
      apply not_gap_of_trim (l := c :: y)
      rw [htrim]
      rfl
    obtain ⟨d, ⟨⟩, hleads⟩ := hreads.rule_starts hgap
    refine hhead ⟨_, rfl, c, rfl, ?_⟩
    constructor <;> (rintro rfl; exact absurd hleads (by simp [Leads, IsQuote, selectorStops]))

theorem except_map_cons_eq_ok {ε α : Type} {x : Except ε (List α)} {a b : α} {as : List α} :
    x.map (a :: ·) = .ok (b :: as) ↔ a = b ∧ x = .ok as := by
  cases x <;> simp [Except.map]

/-- A node is read back in front of others only if they are, and a rule only if its selectors
can be read again. -/
theorem Node.Made.reads_back_cons {n : Node} {s : List Char} (hn : n.Made P s)
    (hquiet : Quiet s → ∀ m ∈ ns, m.Quieted)
    (hback : parseFrom .nothing (sheetChars (n :: ns)) = .ok (n :: ns)) :
    parseFrom .nothing (sheetChars ns) = .ok ns ∧
      ∀ r, n = .rule r → Legible (r.selectors.map String.toList) := by
  have stands : n.Stands s → parseFrom .nothing (sheetChars ns) = .ok ns := by
    intro hstands
    rw [hstands.parseFrom_cons hquiet, except_map_cons_eq_ok] at hback
    exact hback.2
  cases hn with
  | @rule es body hl _ hi =>
    have hhead : Headed es := by
      by_contra hhead
      rw [sheetChars_cons] at hback
      exact parseFrom_ne_of_not_headed hl hhead _ hback
    rw [parseFrom_behind fun t _ => rule_reads_back hl hhead hi t, except_map_cons_eq_ok] at hback
    obtain ⟨hsame, hback⟩ := hback
    have hselectors : splitSelectors (spread es) = es.map String.ofList := by
      simp only [ruleOf, listedRule, Node.rule.injEq, Rule.mk.injEq] at hsame
      exact hsame.1
    have hcut : Cut {} es := (splitSelectors_spread_iff hl.trimmed hhead.ne_nil).1 hselectors
    refine ⟨hback, ?_⟩
    rintro _ ⟨⟩
    have same : (es.map String.ofList).map String.toList = es := by simp
    rw [same]
    exact ⟨hhead, hcut⟩
  | comment hl =>
    refine ⟨stands (comment_stands hl s), ?_⟩
    rintro _ ⟨⟩
  | statement hn hq =>
    refine ⟨stands (statement_stands hn hq), ?_⟩
    rintro _ ⟨⟩
  | block hn hw hq =>
    refine ⟨stands (blockRule_stands hn hw hq), ?_⟩
    rintro _ ⟨⟩

theorem Node.Made.legible {n : Node} {s : List Char} (hn : n.Made P s)
    (h : ∀ r, n = .rule r → Legible (r.selectors.map String.toList)) : n.Made Legible s := by
  cases hn with
  | @rule es body hl _ hi =>
    have same : (es.map String.ofList).map String.toList = es := by simp
    have hlegible := h _ rfl
    rw [same] at hlegible
    exact .rule hl hlegible hi
  | comment hl => exact .comment hl
  | statement hn hq => exact .statement hn hq
  | block hn hw hq => exact .block hn hw hq

theorem Written.legible (h : Written P ns)
    (hlegible : ∀ r, .rule r ∈ ns → Legible (r.selectors.map String.toList)) :
    Written Legible ns := by
  induction h with
  | nil => exact .nil
  | cons hn hquiet _ ih =>
    refine .cons (hn.legible fun r hr => hlegible r (hr ▸ List.mem_cons_self)) hquiet ?_
    exact ih fun r hr => hlegible r (List.mem_cons_of_mem _ hr)

/-- Nodes that follow one another are read back exactly if the selectors of every rule can be
read again. -/
theorem Written.reads_back_iff (h : Written P ns) :
    parseFrom .nothing (sheetChars ns) = .ok ns ↔
      ∀ r, .rule r ∈ ns → Legible (r.selectors.map String.toList) := by
  constructor
  · intro hback
    induction h with
    | nil => exact nofun
    | cons hn hquiet _ ih =>
      obtain ⟨hrest, hrule⟩ := hn.reads_back_cons hquiet hback
      intro r hr
      rcases List.mem_cons.1 hr with hr | hr
      · exact hrule r hr.symm
      · exact ih hrest r hr
  · intro hlegible
    exact (h.legible hlegible).reads_back

/-! ## Sheets -/

/-- Ids aside, a text is read as these nodes exactly if the parser makes them of it. -/
theorem parse_bare_iff {text : String} :
    (∃ sheet, parse text = .ok sheet ∧ sheet.nodes.map Node.bare = ns) ↔
      parseNodes text.toList = .ok ns := by
  constructor
  · rintro ⟨sheet, hsheet, rfl⟩
    obtain ⟨ms, hms, rfl⟩ := parse_eq_ok_iff.1 hsheet
    rwa [ofNodes_bare (unnumbered_of_parseNodes hms)]
  · intro hns
    exact ⟨_, parse_eq_ok_iff.2 ⟨ns, hns, rfl⟩, ofNodes_bare (unnumbered_of_parseNodes hns)⟩

theorem sheetChars_map_bare (ns : List Node) : sheetChars (ns.map Node.bare) = sheetChars ns := by
  have same : Node.chars ∘ Node.bare = Node.chars := funext chars_bare
  rw [sheetChars, List.map_map, same, sheetChars]

/-- A sheet of which the nodes follow one another is read back from its pretty form, ids aside,
exactly if the selectors of all its rules can be read again. -/
theorem Written.render_reads_back_iff {sheet : Stylesheet}
    (h : Written P (sheet.nodes.map Node.bare)) :
    (∃ read, parse (sheet.render (.pretty "  ")) = .ok read ∧
        read.nodes.map Node.bare = sheet.nodes.map Node.bare) ↔
      ∀ r ∈ sheet.rules, Legible (r.selectors.map String.toList) := by
  have rules : (∀ r, .rule r ∈ sheet.nodes.map Node.bare →
      Legible (r.selectors.map String.toList)) ↔
      ∀ r ∈ sheet.rules, Legible (r.selectors.map String.toList) := by
    constructor
    · intro hall r hr
      exact hall r.bare (mem_map_bare_iff.2 ⟨r, hr, rfl⟩)
    · intro hall r hr
      obtain ⟨r', hr', rfl⟩ := mem_map_bare_iff.1 hr
      exact hall r' hr'
  rw [parse_bare_iff, renderPretty_toList, ← sheetChars_map_bare, parseNodes_eq_ok_iff_parseFrom,
    h.reads_back_iff, rules]

end Spriting.Css

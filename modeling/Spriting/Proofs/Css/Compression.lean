import Spriting.Proofs.Css.Written

/-!
# What the compressed form keeps

The compressed form of a sheet that has been read is read as the same sheet without its
comments and without the blanks at the ends of its blocks.  Nothing stands between two of
its nodes, nor between what it keeps of a node, but no lexeme takes anything of the next.

* `Stylesheet.compacted`: what the compressed form keeps of a sheet;
* `Written.reads_back_compressed`: nodes that follow one another are read back so;
* `parse_render_compressed`: so is a sheet, and compressed again it is the same text.
-/

namespace Spriting.Css

open Text Reader

/-! ## What is kept -/

/-- What the compressed form keeps of a node. -/
def Node.compacted? : Node → Option Node
  | rule r => some (.rule { r with body := r.declarations.map .declaration })
  | comment _ => none
  | atRule a => some (.atRule { a with block := a.block.map trimmed })

/-- What the compressed form keeps of a sheet, with ids of its own. -/
def Stylesheet.compacted (sheet : Stylesheet) : Stylesheet :=
  .ofNodes ((sheet.nodes.filterMap Node.compacted?).map Node.bare)

/-- The compressed form of a declaration. -/
def Declaration.dense (d : Declaration) : List Char := d.property.toList ++ ':' :: d.value.toList

/-- The compressed form of a node. -/
def Node.dense (n : Node) : List Char := n.renderCompressed.toList

theorem renderCompressed_toList (sheet : Stylesheet) :
    (sheet.render .compressed).toList = sheet.nodes.flatMap Node.dense := by
  change (String.join (sheet.nodes.map (·.renderCompressed))).toList = _
  rw [String.toList_join, List.flatMap_map]
  rfl

theorem dense_rule (r : Rule) :
    (Node.rule r).dense =
      [','].intercalate (r.selectors.map String.toList) ++
        '\x7b' :: ([';'].intercalate (r.declarations.map Declaration.dense) ++ ['\x7d']) := by
  have declaration : ∀ d : Declaration, d.renderCompressed.toList = d.dense := by
    intro d
    simp [Declaration.renderCompressed, Declaration.dense]
  change (Rule.renderCompressed r).toList = _
  simp [Rule.renderCompressed, String.toList_intercalate, openBrace, closeBrace,
    Function.comp_def, declaration]

/-- A block in the compressed form. -/
def denseBlock : Option (List Char) → List Char
  | none => [';']
  | some block => '\x7b' :: (trim block ++ ['\x7d'])

theorem dense_atRule (a : AtRule) :
    (Node.atRule a).dense =
      '@' :: (a.name.toList ++ ((if a.prelude = "" then [] else ' ' :: a.prelude.toList) ++
        denseBlock (a.block.map String.toList))) := by
  change (AtRule.renderCompressed a).toList = _
  obtain ⟨n, q, block, i⟩ := a
  by_cases hq : q = "" <;> cases block <;>
    simp [AtRule.renderCompressed, AtRule.head, denseBlock, openBrace, closeBrace, trimmed, hq]

theorem dense_atRuleOf (n q : List Char) (block : Option (List Char)) :
    (atRuleOf n q block).dense = '@' :: (n ++ (preludeChars q ++ denseBlock block)) := by
  rw [atRuleOf, dense_atRule]
  simp [preludeChars, Function.comp_def]

/-! ## Quiet nodes -/

theorem quiet_of_declaration {d : Declaration} (h : Quiet (BodyItem.declaration d).chars) :
    Quiet d.property.toList ∧ Quiet d.value.toList := by
  have hchars : (BodyItem.declaration d).chars =
      d.property.toList ++ ([':', ' '] ++ (d.value.toList ++ [';'])) := by
    simp [BodyItem.chars, BodyItem.renderPretty]
  rw [hchars] at h
  exact ⟨h.left, h.right.right.left⟩

/-- A node of quiet parts is compressed quietly in front of a quiet text. -/
theorem Node.Quieted.dense {n : Node} (h : n.Quieted) {t : List Char} (ht : Quiet t) :
    Quiet (n.dense ++ t) := by
  have glue : ∀ {c : Char} {a b : List Char}, (c ≠ '*' ∧ c ≠ '/') → Quiet a → Quiet b →
      Quiet (a ++ ([c] ++ b)) := fun hc ha hb => ha.glue hb hc
  cases n with
  | rule r =>
    have hselectors : ∀ l ∈ r.selectors.map String.toList, Quiet l := List.forall_mem_map.2 h.1
    have hdeclarations : ∀ l ∈ r.declarations.map Declaration.dense, Quiet l := by
      refine List.forall_mem_map.2 fun d hd => ?_
      obtain ⟨item, hitem, hd⟩ := List.mem_filterMap.1 hd
      cases item with
      | comment c => cases hd
      | declaration d =>
        cases hd
        obtain ⟨hproperty, hvalue⟩ := quiet_of_declaration (h.2 _ hitem)
        exact hproperty.glue hvalue (by decide)
    rw [dense_rule, List.append_assoc, List.cons_append, List.append_assoc]
    exact (quiet_intercalate (glue (by decide)) hselectors).glue
      ((quiet_intercalate (glue (by decide)) hdeclarations).glue ht (by decide)) (by decide)
  | comment c => exact h.elim
  | atRule a =>
    obtain ⟨hn, hq, hblock⟩ := h
    have hend : ∃ c u, denseBlock (a.block.map String.toList) ++ t = c :: u ∧
        (c ≠ '*' ∧ c ≠ '/') ∧ Quiet u := by
      cases hb : a.block with
      | none => exact ⟨';', t, rfl, by decide, ht⟩
      | some b =>
        refine ⟨'\x7b', trim b.toList ++ '\x7d' :: t, by simp [denseBlock], by decide, ?_⟩
        exact (hblock b hb).trim.glue ht (by decide)
    obtain ⟨c, u, hu, hc, hquiet⟩ := hend
    rw [dense_atRule, List.cons_append, List.append_assoc, List.append_assoc, hu]
    refine Quiet.cons (by decide) ?_
    split
    · exact hn.glue hquiet hc
    · exact hn.glue (hq.glue hquiet hc) (by decide)

/-- Quiet nodes are compressed quietly. -/
theorem quiet_dense {ns : List Node} (h : ∀ n ∈ ns, n.Quieted) : Quiet (ns.flatMap Node.dense) := by
  induction ns with
  | nil => exact quiet_nil
  | cons n ns ih =>
    obtain ⟨hn, hns⟩ := List.forall_mem_cons.1 h
    exact hn.dense (ih hns)

/-! ## Reading nodes back -/

/-- In front of any text that closes no comment left open by `r`, the compressed form of the
node is read as what it keeps of the node. -/
def Node.StandsDense (n : Node) (r : List Char) : Prop :=
  ∀ t, (Quiet r → Quiet t) →
    parseFrom .nothing (n.dense ++ t) = (parseFrom .nothing t).map (n.compacted?.toList ++ ·)

variable {l : List Char} {items : List BodyItem}

theorem value_ends_rule {n v : List Char} (hv : v = [] ∨ Terminal.value.Takes v) (t : List Char) :
    parseFrom (.colon l items n) (trim v ++ '\x7d' :: t) =
      (parseFrom .nothing t).map (ruleOf l (declarationOf n (trim v) :: items) :: ·) := by
  rcases value_reads hv (.inr (.inr rfl)) with rfl | hread
  · exact parseFrom_end (p := .colon l items n) (t := .closeBrace) rfl rfl
  · rw [hread]
    exact parseFrom_end (t := .closeBrace) rfl rfl

/-- A declaration that the parser makes is compressed to its name, a colon and its value. -/
theorem BodyItem.Written.dense_eq {d : Declaration} (h : (BodyItem.declaration d).Written) :
    ∃ n v, Terminal.property.Takes n ∧ (v = [] ∨ Terminal.value.Takes v) ∧
      BodyItem.declaration d = declarationOf n v ∧ d.dense = trim n ++ ':' :: trim v := by
  generalize hitem : BodyItem.declaration d = item at h
  cases h with
  | @declaration n v hn hv =>
    refine ⟨n, v, hn, hv, rfl, ?_⟩
    cases hitem
    simp [Declaration.dense]
  | comment _ => cases hitem

/-- The declarations of a compressed rule, up to its end. -/
theorem declarations_read_back {ds : List Declaration}
    (h : ∀ d ∈ ds, (BodyItem.declaration d).Written) (t : List Char) :
    parseFrom (.body l items) ([';'].intercalate (ds.map Declaration.dense) ++ '\x7d' :: t) =
      (parseFrom .nothing t).map
        (ruleOf l ((ds.map BodyItem.declaration).reverse ++ items) :: ·) := by
  induction ds generalizing items with
  | nil => exact parseFrom_end (p := .body l items) (t := .closeBrace) rfl rfl
  | cons d ds ih =>
    obtain ⟨hd, hds⟩ := List.forall_mem_cons.1 h
    obtain ⟨n, v, hn, hv, hitem, hdense⟩ := hd.dense_eq
    rw [List.map_cons, List.map_cons, hitem]
    by_cases hlast : ds = []
    · subst hlast
      rw [List.map_nil, List.intercalate_singleton, hdense, List.append_assoc, List.cons_append,
        property_opens hn, value_ends_rule hv, declarationOf_trim]
      rfl
    · rw [List.intercalate_cons_of_ne_nil (by simpa using hlast), hdense]
      simp only [List.append_assoc, List.cons_append, List.nil_append]
      rw [property_opens hn, value_ends hv, declarationOf_trim, ih hds]
      simp

theorem compacted_listedRule (es : List (List Char)) (body : List BodyItem) :
    (listedRule es body).compacted? =
      some (listedRule es ((body.filterMap BodyItem.declaration?).map .declaration)) := rfl

/-- A rule is read back with its declarations. -/
theorem rule_stands_dense {es : List (List Char)} {body : List BodyItem} (hl : Listed es)
    (hlegible : Legible es) (hi : ∀ i ∈ body, i.Written) (r : List Char) :
    (listedRule es body).StandsDense r := by
  intro t _
  obtain ⟨hhead, hcut⟩ := hlegible
  let ds := body.filterMap BodyItem.declaration?
  have hds : ∀ d ∈ ds, (BodyItem.declaration d).Written := by
    intro d hd
    obtain ⟨item, hitem, hd⟩ := List.mem_filterMap.1 hd
    cases item with
    | comment c => cases hd
    | declaration d =>
      cases hd
      exact hi _ hitem
  have hdense : (listedRule es body).dense ++ t =
      [','].intercalate es ++ '\x7b' :: ([';'].intercalate (ds.map Declaration.dense) ++
        '\x7d' :: t) := by
    rw [listedRule, dense_rule]
    simp [Function.comp_def, Rule.declarations, ds]
  rw [hdense, parseFrom_shift (hl.reads_intercalate hhead _ _ (.inr (.inl rfl))) rfl,
    parseFrom_mark (t := .openBrace) (q := .body _ []) rfl rfl,
    declarations_read_back hds, List.append_nil,
    ruleOf_eq (splitSelectors_joined allBlank_nil hl.trimmed hcut), compacted_listedRule]
  rfl

variable {n q : List Char}

/-- An at-rule without a block is compressed to its pretty form. -/
theorem statement_stands_dense {r : List Char} (hn : Keyword n) (hq : PreludeOf q r) :
    (atRuleOf n q none).StandsDense r := by
  intro t ht
  have hdense : (atRuleOf n q none).dense = (atRuleOf n q none).chars := by
    rw [dense_atRuleOf, chars_atRuleOf]
    rfl
  rw [hdense, statement_stands hn hq t ht]
  rfl

theorem compacted_atRuleOf (n q b : List Char) :
    (atRuleOf n q (some b)).compacted? = some (atRuleOf n q (some (trim b))) := by
  simp [atRuleOf, Node.compacted?, trimmed]

/-- An at-rule with a block is read back without the blanks at the ends of the block. -/
theorem blockRule_stands_dense {w r : List Char} (hn : Keyword n) (hw : BlockRest 0 w)
    (hq : PreludeOf q (w ++ r)) : (atRuleOf n q (some w.dropLast)).StandsDense r := by
  intro t ht
  have hdense : (atRuleOf n q (some w.dropLast)).dense ++ t =
      '@' :: (n ++ (preludeChars q ++ '\x7b' :: ((trim w.dropLast ++ ['\x7d']) ++ t))) := by
    simp [dense_atRuleOf, denseBlock]
  have block : ∀ q', parseFrom (.block n q' 0 []) ((trim w.dropLast ++ ['\x7d']) ++ t) =
      (parseFrom .nothing t).map (atRuleOf n q' (some (trim w.dropLast)) :: ·) := by
    intro q'
    have := hw.trim.parseFrom_eq (n := n) (q := q') [] t
    rwa [List.dropLast_concat] at this
  rw [hdense, compacted_atRuleOf]
  rcases hq with rfl | ⟨s₀, r₀, hread, hquiet⟩
  · rw [preludeChars_nil, List.nil_append, keyword_reads_back hn (by decide),
      parseFrom_mark (p := .keyword n) (t := .openBrace) (q := .block n [] 0 []) rfl rfl]
    exact block []
  · have shields : Shields r₀ ('\x7b' :: ((trim w.dropLast ++ ['\x7d']) ++ t)) := by
      refine ⟨by simp, fun h => ?_⟩
      have quiet : Quiet (w ++ r) := hquiet h
      rw [hw.eq_dropLast, List.append_assoc] at quiet
      rw [List.append_assoc]
      exact (quiet.left.trim.glue (ht quiet.right.right) (by decide)).cons (by decide)
    rw [preludeChars_of_prelude hread, List.cons_append, keyword_reads_back hn (by decide),
      parseFrom_skip (fun _ => rfl) (by decide),
      parseFrom_shift (t := .prelude) (q := .prelude n (trim q))
        (prelude_reads_back hread (.inr (.inl rfl)) shields) rfl,
      parseFrom_mark (t := .openBrace) (q := .block n (trim q) 0 []) rfl rfl,
      block, atRuleOf_trim]
    rfl

theorem Node.Made.stands_dense {n : Node} {r : List Char} (h : n.Made Legible r) :
    n.StandsDense r := by
  cases h with
  | rule hl hlegible hi => exact rule_stands_dense hl hlegible hi r
  | comment _ => exact fun t _ => (except_map_nil_append _).symm
  | statement hn hq => exact statement_stands_dense hn hq
  | block hn hw hq => exact blockRule_stands_dense hn hw hq

/-- Nodes that follow one another are read from their compressed form as what it keeps of them. -/
theorem Written.reads_back_compressed {ns : List Node} (h : Written Legible ns) :
    parseFrom .nothing (ns.flatMap Node.dense) = .ok (ns.filterMap Node.compacted?) := by
  induction h with
  | nil => rw [List.flatMap_nil, parseFrom_nil, if_pos rfl, List.filterMap_nil]
  | @cons n ns r hn hquiet _ ih =>
    rw [List.flatMap_cons, hn.stands_dense _ fun hr => quiet_dense (hquiet hr), ih]
    cases hkept : n.compacted? <;> simp [Except.map, hkept]

/-! ## Reading a sheet back -/

theorem compacted_bare (n : Node) : n.bare.compacted? = n.compacted?.map Node.bare := by
  cases n with
  | rule r =>
    simp only [Node.bare, Node.compacted?, declarations_bare]
    simp [Node.bare, Rule.bare, Function.comp_def, BodyItem.withId]
  | comment c => rfl
  | atRule a => rfl

theorem dense_bare (n : Node) : n.bare.dense = n.dense := by
  cases n with
  | rule r =>
    have same : ∀ d : Declaration, ({ d with id := 0 } : Declaration).dense = d.dense := fun _ => rfl
    rw [Node.bare, dense_rule, dense_rule, declarations_bare]
    simp [Rule.bare, Function.comp_def, same]
  | comment c => rfl
  | atRule a => rfl

theorem dense_map_bare (ns : List Node) : (ns.map Node.bare).flatMap Node.dense =
    ns.flatMap Node.dense := by
  simp [List.flatMap_map, dense_bare]

theorem dense_ofNodes (ns : List Node) : (Stylesheet.ofNodes ns).nodes.flatMap Node.dense =
    ns.flatMap Node.dense := by
  rw [← dense_map_bare, ← dense_map_bare ns]
  exact congrArg (List.flatMap Node.dense) (numberNodes_bare _ ns)

/-- What is kept of a node is compressed as the node. -/
theorem dense_compacted (n : Node) : n.compacted?.toList.flatMap Node.dense = n.dense := by
  cases n with
  | rule r =>
    have same : ({ r with body := r.declarations.map .declaration } : Rule).declarations =
        r.declarations := by
      simp [Rule.declarations, List.filterMap_map, Function.comp_def, BodyItem.declaration?]
    simp [Node.compacted?, dense_rule, same]
  | comment c => rfl
  | atRule a =>
    simp only [Node.compacted?, Option.toList_some, List.flatMap_singleton, dense_atRule]
    cases a.block <;> simp [denseBlock, trimmed, trim_trim]

theorem dense_filterMap_compacted (ns : List Node) :
    (ns.filterMap Node.compacted?).flatMap Node.dense = ns.flatMap Node.dense := by
  induction ns with
  | nil => rfl
  | cons n ns ih =>
    rw [List.flatMap_cons, ← ih, ← dense_compacted n]
    cases hkept : n.compacted? <;> simp [hkept]

/-- Of nodes without ids the same is kept as of the sheet that they make. -/
theorem compacted_ofNodes {ns : List Node} (h : ∀ n ∈ ns, n.Unnumbered) :
    (Stylesheet.ofNodes ns).compacted = .ofNodes (ns.filterMap Node.compacted?) := by
  have commute : ∀ ms : List Node,
      (ms.filterMap Node.compacted?).map Node.bare = (ms.map Node.bare).filterMap Node.compacted? :=
    fun ms => by simp [List.filterMap_map, List.map_filterMap, compacted_bare]
  rw [Stylesheet.compacted, commute, ofNodes_bare h]

/-- **The compressed form is read as the sheet without its comments and without the blanks at
the ends of its blocks**, if no selector list of the source starts with a comma; and compressed
again, that sheet is written as the same text. -/
theorem parse_render_compressed {source : String} {sheet : Stylesheet}
    (h : parse source = .ok sheet)
    (hcomma : ∀ l ∈ selectorTexts source, l.head? ≠ some ',') :
    parse (sheet.render .compressed) = .ok sheet.compacted ∧
      sheet.compacted.render .compressed = sheet.render .compressed := by
  constructor
  · obtain ⟨ns, hns, rfl⟩ := parse_eq_ok_iff.1 h
    obtain ⟨ts, hreads⟩ := parseNodes_eq_ok_iff.1 hns
    have legible : Written Legible ns :=
      hreads.legible trivial fun l hl => hcomma l (hreads.mem_selectorTexts.2 hl)
    have hback : parseNodes (ns.flatMap Node.dense) = .ok (ns.filterMap Node.compacted?) :=
      parseNodes_eq_ok_iff.2 (exists_reads legible.reads_back_compressed)
    rw [compacted_ofNodes (unnumbered_of_parseNodes hns)]
    refine parse_eq_ok_iff.2 ⟨_, ?_, rfl⟩
    rw [renderCompressed_toList, dense_ofNodes]
    exact hback
  · rw [← String.toList_inj, renderCompressed_toList, renderCompressed_toList,
      Stylesheet.compacted, dense_ofNodes, dense_map_bare, dense_filterMap_compacted]

/-- A slash in front of a comma, a brace in a string, comments, a block between blanks, and a
comment that a prelude leaves open. -/
def spacedSource : String :=
  "p/ , ,q\x7bc:'\x7d' ;/*d*/e:\x7d/*f*/@media a/* \x7b b\x7b \x7d \x7d@x ;"

def spacedSheet : Stylesheet where
  nodes :=
    [.rule
      { selectors := ["p/", "q"]
        body := [.declaration ⟨"c", "'\x7d'", 2⟩, .comment ⟨"d", 3⟩, .declaration ⟨"e", "", 4⟩]
        id := 1 },
     .comment ⟨"f", 5⟩,
     .atRule { name := "media", prelude := "a/*", block := some " b\x7b \x7d ", id := 6 },
     .atRule { name := "x", id := 7 }]
  lastId := 7

def compactSheet : Stylesheet where
  nodes :=
    [.rule
      { selectors := ["p/", "q"]
        body := [.declaration ⟨"c", "'\x7d'", 2⟩, .declaration ⟨"e", "", 3⟩]
        id := 1 },
     .atRule { name := "media", prelude := "a/*", block := some "b\x7b \x7d", id := 4 },
     .atRule { name := "x", id := 5 }]
  lastId := 5

theorem parse_render_compressed_spaced :
    parse spacedSource = .ok spacedSheet ∧ (∀ l ∈ selectorTexts spacedSource, l.head? ≠ some ',') ∧
      spacedSheet.compacted = compactSheet ∧
      parse (spacedSheet.render .compressed) = .ok compactSheet ∧
      compactSheet.render .compressed = spacedSheet.render .compressed := by
  have accepted : parse spacedSource = .ok spacedSheet := by decide +kernel
  have headed : ∀ l ∈ selectorTexts spacedSource, l.head? ≠ some ',' := by decide +kernel
  have kept : spacedSheet.compacted = compactSheet := by decide
  obtain ⟨back, same⟩ := parse_render_compressed accepted headed
  rw [kept] at back same
  exact ⟨accepted, headed, kept, back, same⟩

end Spriting.Css

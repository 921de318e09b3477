import Spriting.Proofs.Background.Declaring
import Spriting.Proofs.Build.Frame

/-!
# Built sheets say what was built

The text that a build writes in the pretty form is read as the sheet that was built, ids
aside, unless a rule of the source starts with no selector, or a selector that is joined with
those of other rules behind it leaves a string or a bracket open.

* `Framed.made`: a node that was placed is made as the parser makes it;
* `finished_written`: so are all nodes of a finished sheet;
* `finished_legible_iff`: when their selectors can be read again;
* `process_reads_back`: so when the text is read as the sheet.
-/

namespace Spriting.Build

open Background Css Emission Files Layout Sprite

variable {σ : Type} {site : Site σ} {sheet : Stylesheet} {p : Progress}
  {storage : Storage} {source resource text : String} {n n' : Node}

/-! ## Nodes of a finished sheet -/

/-- What holds of the items of a rule, and of a position and a size, holds of the items of the
rule once it has been placed. -/
theorem forall_mem_placed {Q : BodyItem → Prop} {items before after : List BodyItem}
    {d : Declaration} {box : Box} {sprite : SpriteMap} {id : Int}
    (hsplit : items = before ++ .declaration d :: after)
    (hitems : ∀ i ∈ items.map (BodyItem.withId 0), Q i)
    (hposition : Q (.declaration (positionDeclaration box 0)))
    (hsize : Q (.declaration (sizeDeclaration sprite 0))) :
    ∀ i ∈ (before ++ BodyItem.declaration (positionDeclaration box d.id) :: after ++
      [BodyItem.declaration (sizeDeclaration sprite id)]).map (BodyItem.withId 0), Q i := by
  subst hsplit
  simp only [List.map_append, List.map_cons, List.map_nil, List.forall_mem_append,
    List.forall_mem_cons] at hitems ⊢
  exact ⟨⟨hitems.1, hposition, hitems.2.2⟩, hsize, nofun⟩

theorem Framed.made {P : List (List Char) → Prop} {s : List Char} (h : Framed site sheet p n n')
    (hn : n.bare.Made P s) : n'.bare.Made P s := by
  cases h with
  | kept => exact hn
  | placed _ _ _ _ hbody =>
    obtain ⟨hid, hlisted, hP, hitems⟩ := made_rule_iff.1 hn
    refine made_rule_iff.2 ⟨hid, hlisted, hP, ?_⟩
    exact forall_mem_placed hbody hitems (positionDeclaration_written _).1
      (sizeDeclaration_written _).1

theorem Framed.quieted (h : Framed site sheet p n n') (hn : n.bare.Quieted) : n'.bare.Quieted := by
  cases h with
  | kept => exact hn
  | placed _ _ _ _ hbody =>
    refine ⟨hn.1, ?_⟩
    exact forall_mem_placed (Q := fun i => Quiet i.chars) hbody hn.2
      (positionDeclaration_written _).2 (sizeDeclaration_written _).2

/-- The rules of a sheet keep their selectors in a build. -/
theorem framed_selectors {ns ns' : List Node} (h : List.Forall₂ (Framed site sheet p) ns ns') :
    (ns'.filterMap Node.rule?).map Rule.selectors = (ns.filterMap Node.rule?).map Rule.selectors := by
  induction h with
  | nil => rfl
  | @cons n n' _ _ hframed _ ih =>
    cases hframed with
    | kept =>
      rw [List.filterMap_cons, List.filterMap_cons]
      cases n.rule? <;> simp [ih]
    | placed => simp [Node.rule?, ih]

theorem listed_selectorsIn (hparse : parse source = .ok sheet) (g : Group) :
    Listed ((selectorsIn sheet g).map String.toList) :=
  listed_flatMap fun _ hr => (parse_selectors hparse (List.mem_filter.1 hr).1).1

variable [FileSink σ]

/-- The nodes of a finished sheet are made as the parser makes them. -/
theorem finished_written (hparse : parse source = .ok sheet)
    (hrun : runGroups site storage sheet resource = (p, .ok ()))
    (hurls : ∀ made ∈ p.made, ')' ∉ made.url.toList) :
    Written (fun _ => True) (p.finished.nodes.map Node.bare) := by
  have hdistinct := parse_distinct hparse
  obtain ⟨front, hnodes, hnames⟩ := runGroups_names hdistinct.ruleIds_nodup hrun
  have later : Written (fun _ => True) (p.sheet.nodes.map Node.bare) := by
    refine ((parse_written hparse).imp fun _ _ => trivial).replace ?_
    rw [List.forall₂_map_left_iff, List.forall₂_map_right_iff]
    exact (runGroups_framed hdistinct hrun).imp fun n n' h => ⟨fun s => h.made, h.quieted⟩
  have hfront : (front.map Node.rule).map Node.bare = (front.map Rule.bare).map .rule := by
    simp [Function.comp_def, Node.bare]
  rw [hnodes, List.map_append, hfront]
  refine later.rules_append ?_
  refine List.forall_mem_map.2 fun r hr s => ?_
  obtain ⟨g, hg, hname⟩ := exists_of_mem_forall₂ hnames hr
  obtain ⟨made, hmade, -, hbare⟩ := hname.made
  rw [hbare, hname.selectors]
  exact sheetRule_made (hurls made hmade) (listed_selectorsIn hparse g) s

/-! ## Selectors of a finished sheet -/

/-- Selectors of rules of which there is one and which all start with a selector start with one. -/
theorem headed_flatMap {rules : List Rule} (hne : rules ≠ [])
    (h : ∀ r ∈ rules, Headed (r.selectors.map String.toList)) :
    Headed ((rules.flatMap Rule.selectors).map String.toList) := by
  obtain ⟨r, rules, rfl⟩ := List.exists_cons_of_ne_nil hne
  obtain ⟨e, he, hhead⟩ := h r List.mem_cons_self
  obtain ⟨es, hes⟩ := List.head?_eq_some_iff.1 he
  refine ⟨e, ?_, hhead⟩
  rw [List.flatMap_cons, List.map_append, hes]
  rfl

/-- The rules in front have the selectors of their groups. -/
theorem names_selectors {gs : List Group} {front : List Rule}
    (h : List.Forall₂ (Names sheet p) gs front) :
    front.map Rule.selectors = gs.map (selectorsIn sheet) := by
  induction h with
  | nil => rfl
  | cons hname _ ih => rw [List.map_cons, List.map_cons, hname.selectors, ih]

/-- **When the selectors of a finished sheet can be read again.** Every rule of the sheet starts
with a selector, and of the selectors that a group joins each but the last closes what it
opens. -/
theorem finished_legible_iff (hparse : parse source = .ok sheet)
    (hrun : runGroups site storage sheet resource = (p, .ok ())) :
    (∀ r ∈ p.finished.rules, Legible (r.selectors.map String.toList)) ↔
      (∀ r ∈ sheet.rules, Headed (r.selectors.map String.toList)) ∧
      ∀ g ∈ groups sheet, ∀ s ∈ (selectorsIn sheet g).dropLast, Closed s.toList := by
  have hdistinct := parse_distinct hparse
  obtain ⟨front, hnodes, hnames⟩ := runGroups_names hdistinct.ruleIds_nodup hrun
  have own : (∀ r ∈ p.sheet.rules, Legible (r.selectors.map String.toList)) ↔
      ∀ r ∈ sheet.rules, Legible (r.selectors.map String.toList) :=
    forall_mem_iff_of_map_eq (framed_selectors (runGroups_framed hdistinct hrun))
      fun ss => Legible (ss.map String.toList)
  have joined : (∀ r ∈ front, Legible (r.selectors.map String.toList)) ↔
      ∀ g ∈ groups sheet, selectorsIn sheet g ≠ [] →
        Legible ((selectorsIn sheet g).map String.toList) := by
    rw [forall_mem_iff_of_map_eq (names_selectors hnames) fun ss => Legible (ss.map String.toList)]
    simp [withSelectors]
  have closed_iff : ∀ g, Cut {} ((selectorsIn sheet g).map String.toList) ↔
      ∀ s ∈ (selectorsIn sheet g).dropLast, Closed s.toList := by
    intro g
    rw [(listed_selectorsIn hparse g).cut_iff, ← List.map_dropLast, List.forall_mem_map]
  rw [finished_rules hnodes, List.forall_mem_append, joined, own]
  constructor
  · rintro ⟨hgroups, hrules⟩
    refine ⟨fun r hr => (hrules r hr).1, fun g hg => (closed_iff g).1 ?_⟩
    by_cases hnone : selectorsIn sheet g = []
    · rw [hnone]
      trivial
    · exact (hgroups g hg hnone).2
  · rintro ⟨hheaded, hclosed⟩
    refine ⟨fun g hg hsome => ⟨?_, (closed_iff g).2 (hclosed g hg)⟩,
      fun r hr => ⟨hheaded r hr, (parse_selectors hparse hr).2⟩⟩
    refine headed_flatMap ?_ fun r hr => hheaded r (List.mem_filter.1 hr).1
    intro hnone
    exact hsome (by rw [selectorsIn, hnone, List.flatMap_nil])

/-! ## Texts of finished sheets -/

/-- **The text says what the sheet says.** Whenever a build of a sheet that asks for sprite
sheets completes, in the pretty form and with no closing bracket in the URL of a sprite sheet,
the text that it writes is read as the finished sheet, ids aside, exactly if every rule of the
source starts with a selector that is no beginning of an at-rule or a comment, and of the
selectors that a group joins each but the last closes the strings and brackets that it opens. -/
theorem process_reads_back (site : Site σ) (storage : Storage)
    (hstyle : site.settings.compress = false) (hparse : parse source = .ok sheet)
    (henabled : isEnabled sheet = true)
    (h : (process site storage source resource).result = .ok text) :
    ∃ p, runGroups site storage sheet resource = (p, .ok ()) ∧
      text = p.finished.render (.pretty "  ") ∧
      ((∀ made ∈ p.made, ')' ∉ made.url.toList) →
        ((∃ read, parse text = .ok read ∧
            read.nodes.map Node.bare = p.finished.nodes.map Node.bare) ↔
          (∀ r ∈ sheet.rules, Headed (r.selectors.map String.toList)) ∧
          ∀ g ∈ groups sheet, ∀ s ∈ (selectorsIn sheet g).dropLast, Closed s.toList)) := by
  obtain ⟨p, hrun, htext⟩ := runGroups_of_process hparse henabled h
  rw [Settings.style, hstyle, if_neg Bool.false_ne_true] at htext
  refine ⟨p, hrun, htext, fun hurls => ?_⟩
  rw [htext, (finished_written hparse hrun hurls).render_reads_back_iff,
    finished_legible_iff hparse hrun]

/-- Two rules with one image and three selectors, one of them with a comma in brackets. -/
def joinedRules : String :=
  "/*sprite-loader-enable*/a:is(b,c),d\x7bbackground:url(dot.png)\x7d" ++
    "e\x7bbackground:url(dot.png);f:g\x7d"

def joinedSheet : Stylesheet where
  nodes :=
    [.comment { text := "sprite-loader-enable", id := 1 },
     .rule
      { selectors := ["a:is(b,c)", "d"]
        body := [.declaration ⟨"background", "url(dot.png)", 3⟩]
        id := 2 },
     .rule
      { selectors := ["e"]
        body := [.declaration ⟨"background", "url(dot.png)", 5⟩, .declaration ⟨"f", "g", 6⟩]
        id := 4 }]
  lastId := 6

def joinedGroup : Group :=
  ⟨⟨.single, .once⟩, [⟨"dot.png", 2, 3, ["a:is(b,c)", "d"]⟩, ⟨"dot.png", 4, 5, ["e"]⟩]⟩

theorem groups_joinedSheet : groups joinedSheet = [joinedGroup] := by decide +kernel

theorem runGroups_joinedSheet :
    (fun run : Progress × Except BuildError Unit =>
      (run.2, run.1.made.map Made.url, run.1.finished.nodes.length))
      (runGroups memorySite twoImages joinedSheet "a.css") = (.ok (), ["sprite.54839cb.png"], 4) := by
  rw [runGroups, groups_joinedSheet]
  decide +kernel

theorem process_reads_back_joined :
    memorySite.settings.compress = false ∧ parse joinedRules = .ok joinedSheet ∧
    isEnabled joinedSheet = true ∧
    ∃ text, (process memorySite twoImages joinedRules "a.css").result = .ok text ∧
      ∃ (p : Progress) (read : Stylesheet), p.finished.nodes.length = 4 ∧
        (∀ made ∈ p.made, ')' ∉ made.url.toList) ∧
        parse text = .ok read ∧ read.nodes.map Node.bare = p.finished.nodes.map Node.bare := by
  have hchars : joinedRules.toList = _ :=
    String.toList_append.trans (congrArg₂ _ String.toList_ofList String.toList_ofList)
  have hparse : parse joinedRules = .ok joinedSheet := parse_of_toList hchars (by decide +kernel)
  have henabled : isEnabled joinedSheet = true := by decide
  have run := runGroups_joinedSheet
  simp only [Prod.mk.injEq] at run
  obtain ⟨completes, hnames, hlength⟩ := run
  have hresult : ∃ text, (process memorySite twoImages joinedRules "a.css").result = .ok text := by
    rw [process_result hparse henabled, completes]
    exact ⟨_, rfl⟩
  have hheaded : ∀ r ∈ joinedSheet.rules, Headed (r.selectors.map String.toList) := by
    decide
  have hclosed : ∀ g ∈ groups joinedSheet, ∀ s ∈ (selectorsIn joinedSheet g).dropLast,
      Closed s.toList := by
    rw [groups_joinedSheet]
    decide
  obtain ⟨text, hresult⟩ := hresult
  obtain ⟨p, hrun, -, hback⟩ :=
    process_reads_back memorySite twoImages rfl hparse henabled hresult
  rw [hrun] at hnames hlength
  have hurls : ∀ made ∈ p.made, ')' ∉ made.url.toList := by
    intro made hm
    have hurl : made.url ∈ p.made.map Made.url := List.mem_map_of_mem hm
    rw [hnames] at hurl
    rw [List.mem_singleton.1 hurl]
    decide
  obtain ⟨read, hread, hsame⟩ := (hback hurls).2 ⟨hheaded, hclosed⟩
  exact ⟨rfl, hparse, henabled, text, hresult, p, read, hlength, hurls, hread, hsame⟩

/-- A rule of which the selector list is a comma. -/
def bareRule : String := "/*sprite-loader-enable*/,\x7ba:b\x7d"

def bareSheet : Stylesheet where
  nodes :=
    [.comment { text := "sprite-loader-enable", id := 1 },
     .rule { selectors := [], body := [.declaration ⟨"a", "b", 3⟩], id := 2 }]
  lastId := 3

/-- A rule without a selector is built, without any sprite sheet, into a text that is not a
stylesheet. -/
theorem process_reads_back_headless :
    memorySite.settings.compress = false ∧ parse bareRule = .ok bareSheet ∧
    isEnabled bareSheet = true ∧
    (runGroups memorySite twoImages bareSheet "a.css").1.made.length = 0 ∧
    (runGroups memorySite twoImages bareSheet "a.css").1.finished = bareSheet ∧
    (process memorySite twoImages bareRule "a.css").result =
      .ok "/*sprite-loader-enable*/\n\n \x7b\n  a: b;\n\x7d" ∧
    ∀ read, parse "/*sprite-loader-enable*/\n\n \x7b\n  a: b;\n\x7d" ≠ .ok read := by
  have refused : (parse "/*sprite-loader-enable*/\n\n \x7b\n  a: b;\n\x7d").toOption = none := by
    decide +kernel
  refine ⟨rfl, by decide +kernel, by decide, by decide, by decide,
    by decide +kernel, fun read hread => ?_⟩
  rw [hread] at refused
  cases refused

end Spriting.Build

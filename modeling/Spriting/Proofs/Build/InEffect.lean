import Spriting.Proofs.Background.InEffect
import Spriting.Proofs.Build.Frame

/-!
# When a sprite sheet is in effect

A build takes the image declarations of its members out of the sheet and has rules in front
to name the sprite sheets instead, those of the groups that were formed first last.  What is
still in the sheet then comes after all of them and is in effect before them.

* `images_of_framed`: the image declarations that are left in the sheet;
* `runGroups_inEffect`: the one that is in effect in a finished sheet;
* `process_inEffect`: when this is the sprite sheet of the image that was in effect before.
-/

namespace Spriting.Build

open Background Css Emission Files Layout Sprite

variable {σ : Type} {site : Site σ} {sheet : Stylesheet} {p : Progress}
  {g : Group} {ref : Reference} {s : String} {r : Rule} {d : Declaration}

/-! ## What is left in the sheet -/

/-- Of the image declarations of a node a build takes away those that are recorded. -/
theorem imagesOf_framed {n n' : Node} (hdistinct : sheet.Distinct) (hn : n ∈ sheet.nodes)
    (h : Framed site sheet p n n') : imagesOf s n' = (imagesOf s n).filter (isLeft sheet) := by
  cases h with
  | kept hkept =>
    symm
    rw [List.filter_eq_self]
    intro e he
    obtain ⟨r, rfl, -, he, -⟩ := mem_imagesOf.1 he
    refine decide_eq_true fun hrecorded => ?_
    obtain ⟨g, hg, ref, href, hid⟩ := mem_recordedIds.1 hrecorded
    have hc := candidate_of_declarationId hdistinct hn he hg href hid
    exact hkept r rfl (mem_memberIds.2 ⟨g, hg, ref, href, candidate_ruleId hc⟩)
  | @placed g ref r before after d made box id hg href _ hid hbody _ _ _ =>
    have hd : d ∈ r.declarations := by simp [Rule.declarations, hbody, BodyItem.declaration?]
    have hrecorded : isLeft sheet d = false :=
      decide_eq_false fun hnot => hnot (mem_recordedIds.2 ⟨g, hg, ref, href, hid⟩)
    have hothers : ∀ e ∈ r.declarations, e.id ≠ d.id → isLeft sheet e = true :=
      fun e he => isLeft_of_ne hdistinct hn hd hg href hid he
    by_cases hs : s ∈ r.selectors
    · simp only [imagesOf, if_pos hs]
      exact images_of_placed hbody hrecorded hothers
        (declarations_ids_nodup (hdistinct.body_nodup hn)) (position_sets_no_image _ _)
        (size_sets_no_image _ _)
    · simp [imagesOf, hs]

/-- What is left in the sheet for a selector is what was in it and is not recorded. -/
theorem images_of_framed {rest : List Node} (hdistinct : sheet.Distinct)
    (h : List.Forall₂ (Framed site sheet p) sheet.nodes rest) :
    rest.flatMap (imagesOf s) = (imagesFor s sheet).filter (isLeft sheet) := by
  have part : ∀ ns ns' : List Node, (∀ n ∈ ns, n ∈ sheet.nodes) →
      List.Forall₂ (Framed site sheet p) ns ns' →
      ns'.flatMap (imagesOf s) = (ns.flatMap (imagesOf s)).filter (isLeft sheet) := by
    intro ns ns' hns hframed
    induction hframed with
    | nil => rfl
    | cons hn _ ih =>
      obtain ⟨hhead, htail⟩ := List.forall_mem_cons.1 hns
      rw [List.flatMap_cons, List.flatMap_cons, List.filter_append, ih htail,
        imagesOf_framed hdistinct hhead hn]
  exact part sheet.nodes rest (fun _ hn => hn) h

/-! ## What the rules in front add -/

/-- `d` is the declaration by which the rule in front for `g` names its sprite sheet. -/
def NamedBy (sheet : Stylesheet) (p : Progress) (g : Group) (d : Declaration) : Prop :=
  ∃ (k : Nat) (r : Rule), (withSelectors sheet (groups sheet).reverse)[k]? = some g ∧
    p.finished.nodes[k]? = some (.rule r) ∧ Names sheet p g r ∧ r.declarations = [d]

/-- A declaration names the sprite sheet of one group only. -/
theorem NamedBy.unique {g' : Group} (hdistinct : p.finished.Distinct) (h : NamedBy sheet p g d)
    (h' : NamedBy sheet p g' d) : g = g' := by
  obtain ⟨k, r, hg, hr, -, hd⟩ := h
  obtain ⟨k', r', hg', hr', -, hd'⟩ := h'
  have hmem : d ∈ r.declarations := hd ▸ List.mem_cons_self
  have hmem' : d ∈ r'.declarations := hd' ▸ List.mem_cons_self
  have hsame : k = k' := hdistinct.eq_of_mem_ids hr hr' (id_mem_ids hmem) (id_mem_ids hmem')
  rw [← hsame, hg] at hg'
  exact Option.some.inj hg'

/-- What is left in the sheet names no sprite sheet. -/
theorem not_namedBy {front : List Rule} {rest : List Node} (hdistinct : p.finished.Distinct)
    (hnodes : p.finished.nodes = front.map .rule ++ rest)
    (hlength : (withSelectors sheet (groups sheet).reverse).length = front.length)
    (hd : d ∈ rest.flatMap (imagesOf s)) : ¬ NamedBy sheet p g d := by
  rintro ⟨k, r, hg, hr, -, hdr⟩
  have hmem : d ∈ r.declarations := hdr ▸ List.mem_cons_self
  have hk : k < front.length := hlength ▸ (List.getElem?_eq_some_iff.1 hg).1
  obtain ⟨n, hn, hdn⟩ := List.mem_flatMap.1 hd
  obtain ⟨r', rfl, -, hmem', -⟩ := mem_imagesOf.1 hdn
  obtain ⟨j, hj⟩ := List.mem_iff_getElem?.1 hn
  have hr' : p.finished.nodes[front.length + j]? = some (.rule r') := by
    rw [hnodes, List.getElem?_append_right (by simp)]
    simpa using hj
  have hsame := hdistinct.eq_of_mem_ids hr hr' (id_mem_ids hmem) (id_mem_ids hmem')
  omega

/-- A rule that names a sprite sheet has one declaration, and it is an image declaration. -/
theorem Names.images (h : Names sheet p g r) :
    ∃ d, r.declarations = [d] ∧
      imagesOf s (.rule r) = if s ∈ selectorsIn sheet g then [d] else [] := by
  obtain ⟨made, -, -, hbare⟩ := h.made
  have hbody : r.body.map (BodyItem.withId 0) = (sheetRule made.url r.selectors).body :=
    congrArg Rule.body hbare
  obtain ⟨item, hitem, hbare⟩ := List.map_eq_singleton_iff.1 hbody
  cases item with
  | comment c => cases hbare
  | declaration d =>
    have hdeclarations : r.declarations = [d] := by
      simp [Rule.declarations, hitem, BodyItem.declaration?]
    have hproperty : d.property = "background" := by
      injection hbare with hbare
      exact congrArg Declaration.property hbare
    have hsets : sets imageProperties d = true := by
      rw [sets, hproperty]
      decide
    refine ⟨d, hdeclarations, ?_⟩
    simp only [imagesOf, h.selectors, hdeclarations, List.filter_cons, hsets, if_true,
      List.filter_nil]

/-- Of the rules in front that list a selector the last one is that of the group that was
formed first. -/
theorem front_getLast? {gs : List Group} {front : List Rule}
    (h : List.Forall₂ (Names sheet p) gs front) :
    (gs.reverse.find? (s ∈ selectorsIn sheet ·) = none ∧
      (front.map Node.rule).flatMap (imagesOf s) = []) ∨
    ∃ (k : Nat) (g : Group) (r : Rule) (d : Declaration),
      gs.reverse.find? (s ∈ selectorsIn sheet ·) = some g ∧ gs[k]? = some g ∧
      front[k]? = some r ∧ Names sheet p g r ∧ r.declarations = [d] ∧
      ((front.map Node.rule).flatMap (imagesOf s)).getLast? = some d := by
  induction h with
  | nil => exact .inl ⟨rfl, rfl⟩
  | @cons g r gs front hnames _ ih =>
    obtain ⟨d, hd, himages⟩ := hnames.images (s := s)
    rw [List.map_cons, List.flatMap_cons, List.reverse_cons, List.find?_append, himages]
    rcases ih with ⟨hnone, hrest⟩ | ⟨k, g', r', d', hfind, hg', hr', hnames', hd', hlast⟩
    · rw [hnone, hrest, List.append_nil, Option.none_or]
      by_cases hs : s ∈ selectorsIn sheet g
      · right
        exact ⟨0, g, r, d, by simp [hs], rfl, rfl, hnames, hd, by simp [hs]⟩
      · left
        exact ⟨by simp [hs], by simp [hs]⟩
    · right
      refine ⟨k + 1, g', r', d', ?_, hg', hr', hnames', hd', ?_⟩
      · rw [hfind, Option.some_or]
      · rw [List.getLast?_append, hlast, Option.some_or]

theorem find?_withSelectors (gs : List Group) :
    (withSelectors sheet gs).find? (s ∈ selectorsIn sheet ·) =
      gs.find? (s ∈ selectorsIn sheet ·) := by
  rw [withSelectors, List.find?_filter]
  congr 1
  funext g
  by_cases hs : s ∈ selectorsIn sheet g
  · simp [hs, List.ne_nil_of_mem hs]
  · simp [hs]

variable [FileSink σ]

/-- The image declaration that is in effect in a finished sheet: the last one that is left
in the sheet, or else the one that names the sprite sheet of the group that was formed first. -/
theorem runGroups_inEffect {storage : Storage} {resource : String} (hsheet : sheet.Numbered)
    (hrun : runGroups site storage sheet resource = (p, .ok ())) (s : String) :
    (∃ d ∈ imagesFor s sheet, isLeft sheet d = true ∧ inEffect s p.finished = some d ∧
      ∀ g, ¬ NamedBy sheet p g d) ∨
    (∀ d ∈ imagesFor s sheet, isLeft sheet d = false) ∧
      ((groups sheet).find? (s ∈ selectorsIn sheet ·) = none ∧ inEffect s p.finished = none ∨
        ∃ g d, (groups sheet).find? (s ∈ selectorsIn sheet ·) = some g ∧
          NamedBy sheet p g d ∧ inEffect s p.finished = some d) := by
  have hdistinct := hsheet.distinct
  obtain ⟨front, hnodes, hnames⟩ := runGroups_names hdistinct.ruleIds_nodup hrun
  have hleft : p.sheet.nodes.flatMap (imagesOf s) = (imagesFor s sheet).filter (isLeft sheet) :=
    images_of_framed hdistinct (runGroups_framed hdistinct hrun)
  have himages : inEffect s p.finished =
      (((imagesFor s sheet).filter (isLeft sheet)).getLast?).or
        ((front.map Node.rule).flatMap (imagesOf s)).getLast? := by
    rw [inEffect, imagesFor, hnodes, List.flatMap_append, List.getLast?_append, hleft]
  cases hlast : ((imagesFor s sheet).filter (isLeft sheet)).getLast? with
  | some d =>
    left
    rw [hlast, Option.some_or] at himages
    have hmem := List.mem_of_getLast? hlast
    obtain ⟨hd, hisLeft⟩ := List.mem_filter.1 hmem
    refine ⟨d, hd, hisLeft, himages, ?_⟩
    intro g
    exact not_namedBy (runGroups_numbered hsheet hrun).distinct hnodes hnames.length_eq
      (hleft ▸ hmem)
  | none =>
    right
    rw [hlast, Option.none_or] at himages
    have hnone : ∀ d ∈ imagesFor s sheet, isLeft sheet d = false := by
      have := List.filter_eq_nil_iff.1 (List.getLast?_eq_none_iff.1 hlast)
      simpa using this
    refine ⟨hnone, ?_⟩
    have hfront := front_getLast? (s := s) hnames
    rw [← withSelectors_reverse, List.reverse_reverse, find?_withSelectors] at hfront
    rcases hfront with ⟨hfind, hempty⟩ | ⟨k, g, r, d, hfind, hg, hr, hname, hd, hlast⟩
    · left
      rw [hempty] at himages
      exact ⟨hfind, himages⟩
    · right
      have hr' : p.finished.nodes[k]? = some (.rule r) := by
        rw [hnodes, List.getElem?_append_left, List.getElem?_map, hr]
        · rfl
        · rw [List.length_map]
          exact (List.getElem?_eq_some_iff.1 hr).1
      exact ⟨g, d, hfind, ⟨k, r, hg, hr', hname, hd⟩, himages.trans hlast⟩

/-! ## When it is the sprite sheet -/

/-- **When the sprite sheet is in effect.** Let the image declaration that is in effect for a
selector be the one from which a member of a group has its image.  In the sheet that is
written, the declaration that names the sprite sheet of this group is in effect for the
selector if and only if every image declaration for the selector is recorded for some member,
and no group that was formed before has a member that lists the selector. -/
theorem process_inEffect (site : Site σ) (storage : Storage) {source resource text : String}
    (hparse : parse source = .ok sheet) (henabled : isEnabled sheet = true)
    (h : (process site storage source resource).result = .ok text) :
    ∃ p, runGroups site storage sheet resource = (p, .ok ()) ∧
      text = p.finished.render site.settings.style ∧
      ∀ s d before g after ref, inEffect s sheet = some d →
        groups sheet = before ++ g :: after → ref ∈ g.members → ref.declarationId = d.id →
        ((∃ d', inEffect s p.finished = some d' ∧ NamedBy sheet p g d') ↔
          (∀ e ∈ imagesFor s sheet, e.id ∈ recordedIds sheet) ∧
            ∀ g' ∈ before, s ∉ selectorsIn sheet g') := by
  obtain ⟨p, hrun, htext⟩ := runGroups_of_process hparse henabled h
  have hsheet := parse_numbered hparse
  refine ⟨p, hrun, htext, ?_⟩
  intro s d before g after ref hin hsplit href hid
  have hg : g ∈ groups sheet := hsplit ▸ List.mem_append_right _ List.mem_cons_self
  have hs : s ∈ selectorsIn sheet g :=
    mem_selectorsIn hsheet.distinct (List.mem_of_getLast? hin) hg href hid
  rw [← find?_selectorsIn_iff hsplit hs]
  constructor
  · rintro ⟨d', hin', hname⟩
    rcases runGroups_inEffect hsheet hrun s with ⟨e, -, -, he, hnot⟩ |
      ⟨hrecorded, ⟨-, hnone⟩ | ⟨first, e, hfind, hfirst, he⟩⟩
    · cases hin'.symm.trans he
      exact (hnot g hname).elim
    · cases hin'.symm.trans hnone
    · cases hin'.symm.trans he
      refine ⟨fun e he => ?_, ?_⟩
      · simpa [isLeft] using hrecorded e he
      · rw [hfind, hfirst.unique (runGroups_numbered hsheet hrun).distinct hname]
  · rintro ⟨hrecorded, hfind⟩
    rcases runGroups_inEffect hsheet hrun s with ⟨e, he, hisLeft, -⟩ |
      ⟨-, ⟨hnone, -⟩ | ⟨first, e, hfirst, hname, he⟩⟩
    · exact (of_decide_eq_true hisLeft (hrecorded e he)).elim
    · cases hfind.symm.trans hnone
    · cases hfind.symm.trans hfirst
      exact ⟨e, he, hname⟩

/-- A background before an image in one rule, and one selector in two groups. -/
def layeredRules : String :=
  "/*sprite-loader-enable*/a\x7bbackground:red;background:url(dot.png)\x7db\x7bbackground:url(dot.png)\x7db\x7bbackground:url(bar.png) repeat-x\x7d"

def layeredSheet : Stylesheet where
  nodes :=
    [.comment { text := "sprite-loader-enable", id := 1 },
     .rule
      { selectors := ["a"]
        body :=
          [.declaration ⟨"background", "red", 3⟩, .declaration ⟨"background", "url(dot.png)", 4⟩]
        id := 2 },
     .rule
      { selectors := ["b"], body := [.declaration ⟨"background", "url(dot.png)", 6⟩], id := 5 },
     .rule
      { selectors := ["b"]
        body := [.declaration ⟨"background", "url(bar.png) repeat-x", 8⟩]
        id := 7 }]
  lastId := 8

def layeredDots : Group :=
  ⟨⟨.single, .once⟩, [⟨"dot.png", 2, 4, ["a"]⟩, ⟨"dot.png", 5, 6, ["b"]⟩]⟩

def layeredBar : Group := ⟨⟨.single, .horizontal⟩, [⟨"bar.png", 7, 8, ["b"]⟩]⟩

set_option maxRecDepth 1000 in
theorem parse_layeredRules : parse layeredRules = .ok layeredSheet :=
  parse_of_toList String.toList_ofList (by decide +kernel)

theorem groups_layeredSheet : groups layeredSheet = [layeredDots, layeredBar] := by
  decide +kernel

theorem runGroups_layeredSheet :
    (fun run : Progress × Except BuildError Unit =>
      (run.2, run.1.made.map (fun made => (made.group, made.url)),
        inEffect "a" run.1.finished, inEffect "b" run.1.finished))
      (runGroups memorySite twoImages layeredSheet "a.css") =
    (.ok (), [(layeredBar, "sprite.cef8953.png"), (layeredDots, "sprite.54839cb.png")],
      some ⟨"background", "red", 3⟩,
      some ⟨"background", "url(sprite.54839cb.png) no-repeat -9999px -9999px", 15⟩) := by
  rw [runGroups, groups_layeredSheet]
  decide +kernel

/-- A build can put another image in effect than that of the member from whose declaration
it was before: one that is no member's, or that of a group that was formed before. -/
theorem process_inEffect_layered :
    parse layeredRules = .ok layeredSheet ∧ groups layeredSheet = [layeredDots, layeredBar] ∧
    inEffect "a" layeredSheet = some ⟨"background", "url(dot.png)", 4⟩ ∧
    inEffect "b" layeredSheet = some ⟨"background", "url(bar.png) repeat-x", 8⟩ ∧
    ∃ p, runGroups memorySite twoImages layeredSheet "a.css" = (p, .ok ()) ∧
      (process memorySite twoImages layeredRules "a.css").result =
        .ok (p.finished.render (.pretty "  ")) ∧
      p.made.map (fun made => (made.group, made.url)) =
        [(layeredBar, "sprite.cef8953.png"), (layeredDots, "sprite.54839cb.png")] ∧
      inEffect "a" p.finished = some ⟨"background", "red", 3⟩ ∧
      inEffect "b" p.finished =
        some ⟨"background", "url(sprite.54839cb.png) no-repeat -9999px -9999px", 15⟩ := by
  have henabled : isEnabled layeredSheet = true := by decide
  have hresult : (process memorySite twoImages layeredRules "a.css").result =
      (runGroups memorySite twoImages layeredSheet "a.css").2.map fun _ =>
        (runGroups memorySite twoImages layeredSheet "a.css").1.finished.render (.pretty "  ") :=
    process_result parse_layeredRules henabled
  have run := runGroups_layeredSheet
  generalize runGroups memorySite twoImages layeredSheet "a.css" = outcome at hresult run ⊢
  obtain ⟨p, done⟩ := outcome
  simp only [Prod.mk.injEq] at run
  obtain ⟨rfl, hmade, ha, hb⟩ := run
  exact ⟨parse_layeredRules, groups_layeredSheet, by decide, by decide, p, rfl,
    hresult, hmade, ha, hb⟩

/-- Each of two selectors has the sprite sheet of its group in effect. -/
theorem process_inEffect_two_rules :
    ∃ text p, parse twoRules = .ok twoSheet ∧ isEnabled twoSheet = true ∧
      (process memorySite twoImages twoRules "a.css").result = .ok text ∧
      text = p.finished.render (.pretty "  ") ∧
      inEffect "b" twoSheet = some ⟨"background", "url(bar.png) repeat-x", 5⟩ ∧
      ∃ d, inEffect "b" p.finished = some d ∧ NamedBy twoSheet p barGroup d := by
  obtain ⟨text, hresult⟩ := process_twoRules
  obtain ⟨p, -, htext, heffect⟩ :=
    process_inEffect memorySite twoImages parse_twoRules isEnabled_twoSheet hresult
  have hin : inEffect "b" twoSheet = some ⟨"background", "url(bar.png) repeat-x", 5⟩ := by
    decide
  have hsplit : groups twoSheet = [dotGroup] ++ barGroup :: [] := groups_twoSheet
  have hrecorded : ∀ e ∈ imagesFor "b" twoSheet, e.id ∈ recordedIds twoSheet := by
    rw [recordedIds, groups_twoSheet]
    decide
  have hfirst : ∀ g ∈ [dotGroup], "b" ∉ selectorsIn twoSheet g := by
    decide
  have hname := (heffect "b" _ [dotGroup] barGroup [] ⟨"bar.png", 4, 5, ["b"]⟩ hin hsplit
    List.mem_cons_self rfl).2 ⟨hrecorded, hfirst⟩
  exact ⟨text, p, parse_twoRules, isEnabled_twoSheet, hresult, htext, hin, hname⟩

end Spriting.Build

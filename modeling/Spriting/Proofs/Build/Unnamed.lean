import Spriting.Proofs.Background.Remaining
import Spriting.Proofs.Build.Events
import Spriting.Proofs.Build.Heads
import Spriting.Proofs.Build.Sprited
import Spriting.Proofs.Css.BlankLists

/-!
# Sprite sheets that no rule names

The rule that names a sprite sheet is made for the selectors of the members, and none is made if
they have no selector.  Their images are taken out of the sheet all the same.  A rule has no
selector exactly if its list in the source is made of commas and blanks.

* `placeGroup_rule`, `placeGroup_nodes_iff`: when no rule is made, and when nothing changes;
* `runGroups_named`: how many sprite sheets are named by a rule;
* `process_names`: what becomes of a group whose members have no selector.
-/

namespace Spriting.Build

open Background Css Emission Files Layout Sprite

variable {σ : Type} [FileSink σ] {site : Site σ} {sheet : Stylesheet} {p : Progress}
  {g : Group} {storage : Storage} {source resource text : String} {sprite : SpriteMap}
  {resolve : String → String}

/-! ## Placing a group -/

/-- A member has the selectors that a list of the source is cut into. -/
theorem exists_list_of_member (hparse : parse source = .ok sheet) (hg : g ∈ groups sheet)
    {ref : Reference} (href : ref ∈ g.members) :
    ∃ raw ∈ selectorTexts source, ref.selectors = splitSelectors raw := by
  obtain ⟨r, hr, hc⟩ := candidate_of_mem_groups hg href
  obtain ⟨-, hselectors, -⟩ := findImage_spec (candidate_spec hc).1
  have hmem : r.selectors ∈ sheet.rules.map Rule.selectors := List.mem_map_of_mem hr
  rw [parse_rules_selectors hparse, List.mem_map] at hmem
  obtain ⟨raw, hraw, hcut⟩ := hmem
  exact ⟨raw, hraw, hselectors.trans hcut.symm⟩

/-- A group gets a rule unless no member that has a box has a selector. -/
theorem placeGroup_rule (hids : sheet.ruleIds.Nodup) (hg : g ∈ groups sheet) (url : String) :
    ∃ rule, (placeGroup sheet g.members sprite url resolve).result = .ok rule ∧
      (rule = none ↔ ∀ ref ∈ g.members,
        sprite.placements.lookup (resolve ref.url) ≠ none → ref.selectors = []) := by
  have collected := placeMembers_of_holds sprite resolve
    fun ref href => holds_of_mem_groups hids hg href
  refine ⟨_, congrArg (Except.map _) collected, ?_⟩
  rw [ite_eq_left_iff, List.flatMap_eq_nil_iff]
  simp only [reduceCtorEq, imp_false, not_not]
  constructor
  · intro h ref href hbox
    obtain ⟨box, hbox⟩ := Option.ne_none_iff_exists'.1 hbox
    exact h ⟨ref, box, sprite.width, sprite.height⟩ (mem_targets_iff.2 ⟨href, hbox, rfl, rfl⟩)
  · intro h t ht
    obtain ⟨href, hbox, -⟩ := mem_targets_iff.1 ht
    exact h t.ref href (by simp [hbox])

/-- Placing a group changes no node exactly if no member has a box. -/
theorem placeGroup_nodes_iff (hsheet : sheet.Distinct) (hg : g ∈ groups sheet) (url : String) :
    (placeGroup sheet g.members sprite url resolve).sheet.nodes = sheet.nodes ↔
      ∀ ref ∈ g.members, sprite.placements.lookup (resolve ref.url) = none := by
  have hids := hsheet.ruleIds_nodup
  have hmembers := members_ruleIds_nodup hids hg
  have hplaces : Places sprite resolve sheet g.members _ :=
    places_of_placeMembers (placeMembers_of_holds sprite resolve
      fun ref href => holds_of_mem_groups hids hg href)
  change (placeMembers sprite resolve sheet g.members).sheet.nodes = _ ↔ _
  constructor
  · intro same ref href
    by_contra hbox
    obtain ⟨box, hbox⟩ := Option.ne_none_iff_exists'.1 hbox
    obtain ⟨r, hr, hc⟩ := candidate_of_mem_groups hg href
    obtain ⟨k, hk⟩ := List.mem_iff_getElem?.1 (Stylesheet.mem_rules_iff.1 hr)
    obtain ⟨r', hr', hpoints⟩ := hplaces.points hids hmembers href hk
      (hsheet.body_nodup (List.mem_of_getElem? hk)) (candidate_spec hc).1 hbox
    -- the rule positions its background now, and so it was not in a group before
    rw [same, hk] at hr'
    cases hr'
    rw [candidate_of_positioned hpoints.positioned] at hc
    cases hc
  · intro hnone
    apply List.ext_getElem?
    intro k
    exact hplaces.kept fun r _ ref href _ => hnone ref href

/-! ## A whole run -/

/-- A run makes as many rules as there are groups of which a member has a selector. -/
theorem runGroups_named (hids : sheet.ruleIds.Nodup)
    (hrun : runGroups site storage sheet resource = (p, .ok ())) :
    p.rules.length = (groups sheet).countP fun g => g.members.any (·.selectors ≠ []) := by
  have hlength := (rules_of_makes (runGroups_makes hids hrun)).length_eq
  change _ = p.rules.length at hlength
  rw [← hlength, withSelectors, ← List.countP_eq_length_filter, List.countP_reverse]
  apply List.countP_congr
  intro g hg
  rw [selectorsIn_eq hids hg]
  simp

/-- A build that completes tells how many groups there are and how many rules were made. -/
theorem process_tells (hparse : parse source = .ok sheet) (henabled : isEnabled sheet = true)
    (hrun : runGroups site storage sheet resource = (p, .ok ())) :
    ∃ between, (∀ e ∈ between, e.kind ≠ .skipped ∧ e.kind ≠ .completed) ∧
      eventsOf (process site storage source resource).reports =
        .started resource :: .groupsFormed resource (groups sheet).length :: between ++
          [.completed resource p.rules.length] := by
  have built : buildSource site storage source resource = _ := buildSource_of_parse hparse henabled
  rw [buildSheet, hrun] at built
  obtain ⟨-, hevents⟩ := eventsOf_process_ok built
  obtain ⟨blocks, hblocks, hmore, -⟩ := buildGroups_tells hrun
  rw [eventsOf_startOf] at hmore
  refine ⟨blocks.flatten, between_of_blocks hblocks, ?_⟩
  rw [hevents, eventsOf_append, hmore]
  rfl

/-- **Sprite sheets are named only if there is a selector.** A rule that shows an image has the
selectors of its list, and none exactly if the list is made of commas and blanks.  Placing a
group always succeeds, and makes no rule if the members that have a box have no selector; but it
changes the sheet whenever a member has a box.  So when a build completes, the number of rules it
tells is that of the groups of which a member has a selector, and it is the number of groups it
told only if all are such. -/
theorem process_names (hparse : parse source = .ok sheet) :
    (∀ g ∈ groups sheet, ∀ ref ∈ g.members, ∃ raw ∈ selectorTexts source,
      ref.selectors = splitSelectors raw ∧ (ref.selectors = [] ↔ NoSelector raw)) ∧
    (∀ g ∈ groups sheet, ∀ sprite url resolve, ∃ rule,
      (placeGroup sheet g.members sprite url resolve).result = .ok rule ∧
      (rule = none ↔ ∀ ref ∈ g.members,
        sprite.placements.lookup (resolve ref.url) ≠ none → ref.selectors = []) ∧
      ((placeGroup sheet g.members sprite url resolve).sheet.nodes = sheet.nodes ↔
        ∀ ref ∈ g.members, sprite.placements.lookup (resolve ref.url) = none)) ∧
    (isEnabled sheet = true → ∀ {σ : Type} [FileSink σ] (site : Site σ) storage resource text,
      (process site storage source resource).result = .ok text →
      ∃ between count, (∀ e ∈ between, e.kind ≠ .skipped ∧ e.kind ≠ .completed) ∧
        eventsOf (process site storage source resource).reports =
          .started resource :: .groupsFormed resource (groups sheet).length :: between ++
            [.completed resource count] ∧
        count = ((groups sheet).countP fun g => g.members.any (·.selectors ≠ [])) ∧
        (count = (groups sheet).length ↔
          ∀ g ∈ groups sheet, ∃ ref ∈ g.members, ref.selectors ≠ [])) := by
  have hsheet := parse_distinct hparse
  have hids := hsheet.ruleIds_nodup
  refine ⟨?_, ?_, ?_⟩
  · intro g hg ref href
    obtain ⟨raw, hraw, hcut⟩ := exists_list_of_member hparse hg href
    exact ⟨raw, hraw, hcut, hcut ▸ splitSelectors_eq_nil_iff⟩
  · intro g hg sprite url resolve
    obtain ⟨rule, hrule, hnone⟩ := placeGroup_rule hids hg url
    exact ⟨rule, hrule, hnone, placeGroup_nodes_iff hsheet hg url⟩
  · intro henabled _ _ site storage resource text hresult
    obtain ⟨p, hrun, -⟩ := runGroups_of_process hparse henabled hresult
    obtain ⟨between, hbetween, hevents⟩ := process_tells hparse henabled hrun
    have hcount := runGroups_named hids hrun
    refine ⟨between, p.rules.length, hbetween, hevents, hcount, ?_⟩
    rw [hcount, List.countP_eq_length]
    simp

/-! ## A rule without a selector -/

/-- The image of the first rule is taken out of the sheet, and no rule names its sprite sheet. -/
def unnamedRule : String :=
  "/*sprite-loader-enable*/,\x7bbackground:url(dot.png)\x7db\x7bbackground:url(bar.png) repeat-x\x7d"

def unnamedSheet : Stylesheet where
  nodes :=
    [.comment { text := "sprite-loader-enable", id := 1 },
     .rule
      { selectors := [], body := [.declaration ⟨"background", "url(dot.png)", 3⟩], id := 2 },
     .rule barRule]
  lastId := 5

def unnamedGroup : Group := ⟨⟨.single, .once⟩, [⟨"dot.png", 2, 3, []⟩]⟩

theorem parse_unnamedRule : parse unnamedRule = .ok unnamedSheet :=
  parse_of_toList String.toList_ofList (by decide +kernel)

theorem isEnabled_unnamedSheet : isEnabled unnamedSheet = true := by decide

theorem groups_unnamedSheet : groups unnamedSheet = [unnamedGroup, barGroup] := by decide +kernel

theorem unnamedGroup_mem : unnamedGroup ∈ groups unnamedSheet := by
  rw [groups_unnamedSheet]
  exact List.mem_cons_self

theorem process_unnamedRule :
    ∃ text, (process memorySite twoImages unnamedRule "a.css").result = .ok text := by
  have completes : (runGroups memorySite twoImages unnamedSheet "a.css").2 = .ok () := by
    rw [runGroups, groups_unnamedSheet]
    decide +kernel
  rw [process_result parse_unnamedRule isEnabled_unnamedSheet, completes]
  exact ⟨_, rfl⟩

theorem process_names_unnamed_rule :
    parse unnamedRule = .ok unnamedSheet ∧ isEnabled unnamedSheet = true ∧
    (∃ raw ∈ selectorTexts unnamedRule, splitSelectors raw = [] ∧ NoSelector raw) ∧
    ∃ text between, (process memorySite twoImages unnamedRule "a.css").result = .ok text ∧
      eventsOf (process memorySite twoImages unnamedRule "a.css").reports =
        .started "a.css" :: .groupsFormed "a.css" 2 :: between ++ [.completed "a.css" 1] := by
  obtain ⟨text, hresult⟩ := process_unnamedRule
  obtain ⟨listed, -, tells⟩ := process_names parse_unnamedRule
  obtain ⟨between, count, -, hevents, hcount, -⟩ :=
    tells isEnabled_unnamedSheet memorySite twoImages "a.css" text hresult
  obtain ⟨raw, hraw, hcut, hnone⟩ := listed unnamedGroup unnamedGroup_mem _ List.mem_cons_self
  have one : count = 1 := by
    rw [hcount, groups_unnamedSheet]
    decide
  rw [one, groups_unnamedSheet] at hevents
  exact ⟨parse_unnamedRule, isEnabled_unnamedSheet, ⟨raw, hraw, hcut.symm, hnone.1 rfl⟩, text,
    between, hresult, hevents⟩

/-- No rule comes of a group whose only member has no selector, and yet its rule has changed. -/
theorem placeGroup_unnamed_rule :
    ¬ ∀ (source : String) (sheet : Stylesheet), parse source = .ok sheet →
      ∀ g ∈ groups sheet, ∀ sprite url resolve,
        (placeGroup sheet g.members sprite url resolve).result = .ok none →
        (placeGroup sheet g.members sprite url resolve).sheet.nodes = sheet.nodes := by
  intro h
  let sprite : SpriteMap := ⟨1, 1, [("dot.png", ⟨0, 0, 1, 1⟩)]⟩
  have same := h unnamedRule unnamedSheet parse_unnamedRule unnamedGroup unnamedGroup_mem
    sprite "s.png" id (by decide +kernel)
  have changed : (placeGroup unnamedSheet unnamedGroup.members sprite "s.png" id).sheet.nodes ≠
      unnamedSheet.nodes := by decide +kernel
  exact changed same

end Spriting.Build

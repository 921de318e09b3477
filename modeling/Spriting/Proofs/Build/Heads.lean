import Mathlib.Data.List.Forall2
import Spriting.Proofs.Build.Placing

/-!
# The rules in front

Every group that is built makes a sprite sheet, and if it has a selector to show an image
for, a rule that names the sprite sheet.  A finished sheet begins with these rules, in the
order in which the groups were built.

* `Steady.buildGroups_makes`: what a run makes of its groups, group by group;
* `runGroups_names`: what stands in front of a finished sheet;
* `runGroups_numbered`: no id comes twice in a finished sheet.
-/

namespace Spriting.Build

open Background Css Emission Files Layout Sprite

variable {σ : Type} [FileSink σ] {site : Site σ} {sheet : Stylesheet} {p q last : Progress}
  {g : Group} {gs : List Group}

/-! ## What is made of groups -/

/-- `made` was made of `g`, and its rule, if there is one, is for all selectors of `g`. -/
structure Makes (sheet : Stylesheet) (g : Group) (made : Made) : Prop where
  group : made.group = g
  rule : made.rule =
    if selectorsIn sheet g = [] then none else some (sheetRule made.url (selectorsIn sheet g))

theorem Steady.makes {made : Made} (h : Steady (groups sheet) p) (hids : sheet.ruleIds.Nodup)
    (hg : g ∈ groups sheet) (built : Built site g p q made) : Makes sheet g made := by
  refine ⟨built.group, ?_⟩
  have placed := (h.placeGroup hg built.packed made.url).2
  rw [built.rule, ← selectorsIn_eq hids hg] at placed
  exact Except.ok.inj placed

/-- A run makes one sprite sheet of each group, in the order of the groups. -/
theorem Steady.buildGroups_makes (h : Steady (groups sheet) p) (hids : sheet.ruleIds.Nodup)
    (hgs : ∀ g ∈ gs, g ∈ groups sheet) (hrun : Build.buildGroups site gs p = (last, .ok ())) :
    ∃ makes, last.made = p.made ++ makes ∧ List.Forall₂ (Makes sheet) gs makes := by
  induction gs generalizing p with
  | nil =>
    cases hrun
    exact ⟨[], by simp, .nil⟩
  | cons g gs ih =>
    obtain ⟨hg, hgs⟩ := List.forall_mem_cons.1 hgs
    obtain ⟨q, hgroup, hrest⟩ := buildGroups_cons_ok.1 hrun
    obtain ⟨made, built⟩ := built_of_buildGroup hgroup
    have hq : Steady (groups sheet) (Build.buildGroup site g p).1 := h.buildGroup hg
    rw [hgroup] at hq
    obtain ⟨makes, hmade, hmakes⟩ := ih hq hgs hrest
    refine ⟨made :: makes, ?_, .cons (h.makes hids hg built) hmakes⟩
    rw [hmade, built.made_eq]
    simp

/-- The groups of `gs` that have a selector to show an image for. -/
def withSelectors (sheet : Stylesheet) (gs : List Group) : List Group :=
  gs.filter fun g => selectorsIn sheet g ≠ []

theorem withSelectors_reverse (sheet : Stylesheet) (gs : List Group) :
    withSelectors sheet gs.reverse = (withSelectors sheet gs).reverse := List.filter_reverse ..

/-- Rules come of the groups that have a selector, in the order of the groups. -/
theorem rules_of_makes {makes : List Made} (h : List.Forall₂ (Makes sheet) gs makes) :
    List.Forall₂
      (fun g r => ∃ made ∈ makes, made.group = g ∧ r = sheetRule made.url (selectorsIn sheet g))
      (withSelectors sheet gs) (makes.filterMap (·.rule)) := by
  induction h with
  | nil => exact .nil
  | @cons g made gs makes hmakes _ ih =>
    have later : List.Forall₂ (fun g r => ∃ m ∈ made :: makes, m.group = g ∧
        r = sheetRule m.url (selectorsIn sheet g)) (withSelectors sheet gs)
        (makes.filterMap (·.rule)) := by
      refine ih.imp ?_
      intro g r ⟨m, hm, hmade⟩
      exact ⟨m, List.mem_cons_of_mem made hm, hmade⟩
    have hrule := hmakes.rule
    by_cases hnone : selectorsIn sheet g = []
    · rw [if_pos hnone] at hrule
      rw [withSelectors, List.filter_cons_of_neg (by simpa using hnone),
        List.filterMap_cons_none hrule]
      exact later
    · rw [if_neg hnone] at hrule
      rw [withSelectors, List.filter_cons_of_pos (by simpa using hnone),
        List.filterMap_cons_some hrule]
      exact .cons ⟨made, List.mem_cons_self, hmakes.group, rfl⟩ later

/-! ## What stands in front -/

/-- `r` names, for all selectors of `g`, a sprite sheet that was made of `g`. -/
structure Names (sheet : Stylesheet) (p : Progress) (g : Group) (r : Rule) : Prop where
  selectors : r.selectors = selectorsIn sheet g
  made : ∃ made ∈ p.made, made.group = g ∧ r.bare = sheetRule made.url r.selectors

/-- The rules in front are the rules of the sprite sheets, with ids. -/
theorem finished_nodes (p : Progress) :
    ∃ front : List Rule, p.finished.nodes = front.map .rule ++ p.sheet.nodes ∧
      front.map Rule.bare = p.rules.map Rule.bare := by
  obtain ⟨front, hnodes, hbare⟩ :=
    numberNodes_rules (highestId p.sheet.lastId (p.rules.map .rule)) p.rules
  exact ⟨front, congrArg (· ++ p.sheet.nodes) hnodes, hbare⟩

theorem finished_rules {front : List Rule}
    (hnodes : p.finished.nodes = front.map .rule ++ p.sheet.nodes) :
    p.finished.rules = front ++ p.sheet.rules := by
  have own : (front.map Node.rule).filterMap Node.rule? = front := by
    rw [List.filterMap_map]
    exact List.filterMap_some
  rw [Stylesheet.rules, hnodes, List.filterMap_append, own, Stylesheet.rules]

/-- A run over the groups of a sheet makes one sprite sheet of each. -/
theorem runGroups_makes {storage : Storage} {resource : String} (hids : sheet.ruleIds.Nodup)
    (hrun : runGroups site storage sheet resource = (p, .ok ())) :
    List.Forall₂ (Makes sheet) (groups sheet).reverse p.made := by
  have all : ∀ g ∈ (groups sheet).reverse, g ∈ groups sheet := fun g hg => List.mem_reverse.1 hg
  obtain ⟨makes, hmade, hmakes⟩ :=
    (steady_startOf storage resource hids).buildGroups_makes hids all hrun
  obtain rfl : p.made = makes := hmade
  exact hmakes

/-- In front of a finished sheet stands a rule for each group that has a selector, the rule
of the last group first. -/
theorem runGroups_names {storage : Storage} {resource : String} (hids : sheet.ruleIds.Nodup)
    (hrun : runGroups site storage sheet resource = (p, .ok ())) :
    ∃ front : List Rule, p.finished.nodes = front.map .rule ++ p.sheet.nodes ∧
      List.Forall₂ (Names sheet p) (withSelectors sheet (groups sheet).reverse) front := by
  obtain ⟨front, hnodes, hbare⟩ := finished_nodes p
  refine ⟨front, hnodes, ?_⟩
  have hmakes := runGroups_makes hids hrun
  -- only their ids have changed since the rules were made
  have bare : List.Forall₂
      (fun g r => ∃ made ∈ p.made, made.group = g ∧ r = sheetRule made.url (selectorsIn sheet g))
      (withSelectors sheet (groups sheet).reverse) (p.rules.map Rule.bare) := by
    rw [List.forall₂_map_right_iff]
    refine (rules_of_makes hmakes).imp ?_
    rintro g _ ⟨made, hmem, hgroup, rfl⟩
    exact ⟨made, hmem, hgroup, rfl⟩
  rw [← hbare, List.forall₂_map_right_iff] at bare
  refine bare.imp ?_
  rintro g r ⟨made, hmem, hgroup, hr⟩
  have hselectors : r.selectors = selectorsIn sheet g := congrArg Rule.selectors hr
  exact ⟨hselectors, made, hmem, hgroup, hselectors ▸ hr⟩

/-- No id comes twice in a finished sheet. -/
theorem runGroups_numbered {storage : Storage} {resource : String} (hsheet : sheet.Numbered)
    (hrun : runGroups site storage sheet resource = (p, .ok ())) : p.finished.Numbered :=
  finished_numbered (buildGroups_numbered hrun hsheet) (buildGroups_unnumbered hrun nofun)

end Spriting.Build

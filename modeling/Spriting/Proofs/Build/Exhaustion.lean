import Spriting.Proofs.Background.Remaining
import Spriting.Proofs.Build.Heads

/-!
# A build takes every image once

While the groups of a sheet are built one after another, the groups of the sheet as it stands
are those that are still to be built.  So none is left at the end, and what is grouped in a
finished sheet are rules in front.

* `Built.groups`, `buildGroups_remaining`: what one group takes, and what a run leaves;
* `process_exhausts`: what is left to group when a build completes.
-/

namespace Spriting.Build

open Background Css Emission Files Layout Sprite

variable {σ : Type} [FileSink σ] {site : Site σ} {p q last : Progress} {g : Group}
  {gs rest : List Group} {sheet : Stylesheet} {storage : Storage} {source resource text : String}

/-- A group that is built is none of the sheet any more, and the others stay. -/
theorem Built.groups {made : Made} (h : Built site g p q made) (hsheet : p.sheet.Distinct)
    (hg : g ∈ Background.groups p.sheet) :
    Background.groups q.sheet =
      (Background.groups p.sheet).filter fun g' => !g'.key == g.key :=
  h.placed.groups hsheet hg fun _ href => exists_box h.packed href

/-- The groups of the sheet are at any time those that are still to be built. -/
theorem buildGroups_remaining (hsheet : p.sheet.Numbered)
    (hgroups : groups p.sheet = (gs ++ rest).reverse)
    (h : buildGroups site gs p = (last, .ok ())) : groups last.sheet = rest.reverse := by
  induction gs generalizing p with
  | nil =>
    cases h
    exact hgroups
  | cons g gs ih =>
    obtain ⟨q, hg, hgs⟩ := buildGroups_cons_ok.1 h
    obtain ⟨made, built⟩ := built_of_buildGroup hg
    rw [List.cons_append, List.reverse_cons] at hgroups
    have hmem : g ∈ groups p.sheet := by
      rw [hgroups]
      exact List.mem_append_right _ List.mem_cons_self
    -- no other group has the key of the one that has been built
    have keys : ((groups p.sheet).map Group.key).Nodup := gather_keys_nodup _
    rw [hgroups, List.map_append, List.nodup_append] at keys
    have others : ∀ g' ∈ (gs ++ rest).reverse, (!g'.key == g.key) = true := fun g' hg' => by
      simpa using keys.2.2 g'.key (List.mem_map_of_mem hg') g.key List.mem_cons_self
    apply ih (built.placed.numbered hsheet) _ hgs
    rw [built.groups hsheet.distinct hmem, hgroups, List.filter_append,
      List.filter_eq_self.2 others, List.filter_cons_of_neg (by simp), List.filter_nil,
      List.append_nil]

/-- What is grouped in a finished sheet of which no group is left stands in front. -/
theorem finished_members {front : List Rule} {ref : Reference}
    (hfinished : p.finished.ruleIds.Nodup)
    (hnodes : p.finished.nodes = front.map .rule ++ p.sheet.nodes) (hleft : groups p.sheet = [])
    (hg : g ∈ groups p.finished) (href : ref ∈ g.members) :
    ∃ r ∈ front, p.finished.findRule ref.ruleId = some r ∧ ref.ruleId ∉ p.sheet.ruleIds := by
  obtain ⟨r, hr, hc⟩ := candidate_of_mem_groups hg href
  have hid : ref.ruleId = r.id := candidate_ruleId hc
  have rules := finished_rules hnodes
  have hfront : r ∈ front := by
    rw [rules] at hr
    rcases List.mem_append.1 hr with hr | hr
    · exact hr
    · rw [groups_eq_nil_iff.1 hleft r hr] at hc
      cases hc
  refine ⟨r, hfront, ?_, ?_⟩
  · rw [hid]
    exact Stylesheet.findRule_of_mem hfinished hr
  · intro hmem
    rw [Stylesheet.ruleIds, rules, List.map_append, List.nodup_append] at hfinished
    exact hfinished.2.2 r.id (List.mem_map_of_mem hfront) ref.ruleId hmem hid.symm

/-- **A build takes every image once.** Whenever a build of a sheet that asks for sprite sheets
completes, the groups of the sheet were at any time exactly those still to be built, so that
none is left before the rules in front are added.  When they have been added, every image that
may go into a sprite sheet is the image of a rule in front, and of no rule that the source had. -/
theorem process_exhausts (site : Site σ) (storage : Storage) (hparse : parse source = .ok sheet)
    (henabled : isEnabled sheet = true)
    (h : (process site storage source resource).result = .ok text) :
    ∃ p, runGroups site storage sheet resource = (p, .ok ()) ∧
      text = p.finished.render site.settings.style ∧
      (∀ before after q, (groups sheet).reverse = before ++ after →
        buildGroups site before (startOf site storage sheet resource) = (q, .ok ()) →
        groups q.sheet = after.reverse) ∧
      groups p.sheet = [] ∧
      ∃ front : List Rule, p.finished.nodes = front.map .rule ++ p.sheet.nodes ∧
        front.map Rule.bare = p.rules.map Rule.bare ∧
        ∀ g ∈ groups p.finished, ∀ ref ∈ g.members,
          ∃ r ∈ front, p.finished.findRule ref.ruleId = some r ∧ ref.ruleId ∉ sheet.ruleIds := by
  obtain ⟨p, hrun, htext⟩ := runGroups_of_process hparse henabled h
  have hsheet := parse_numbered hparse
  have remaining : ∀ before after q, (groups sheet).reverse = before ++ after →
      buildGroups site before (startOf site storage sheet resource) = (q, .ok ()) →
      groups q.sheet = after.reverse := by
    intro before after q hsplit hbefore
    refine buildGroups_remaining hsheet ?_ hbefore
    rw [← hsplit, List.reverse_reverse]
    rfl
  have hleft : groups p.sheet = [] := remaining _ [] p (List.append_nil _).symm hrun
  obtain ⟨front, hnodes, hbare⟩ := finished_nodes p
  refine ⟨p, hrun, htext, remaining, hleft, front, hnodes, hbare, ?_⟩
  intro g hg ref href
  have hfinished := (runGroups_numbered hsheet hrun).distinct.ruleIds_nodup
  have same : p.sheet.ruleIds = sheet.ruleIds := buildGroups_ruleIds hrun
  rw [← same]
  exact finished_members hfinished hnodes hleft hg href

/-- The group that is built first is gone before the other one is built. -/
theorem process_exhausts_two_rules :
    parse twoRules = .ok twoSheet ∧ isEnabled twoSheet = true ∧
    ∃ (text : String) (p q : Progress),
      (process memorySite twoImages twoRules "a.css").result = .ok text ∧
      buildGroups memorySite [barGroup] (startOf memorySite twoImages twoSheet "a.css") =
        (q, .ok ()) ∧
      groups q.sheet = [dotGroup] ∧ groups p.sheet = [] ∧
      ∃ front : List Rule, p.finished.nodes = front.map .rule ++ p.sheet.nodes ∧
        ∀ g ∈ groups p.finished, ∀ ref ∈ g.members,
          ∃ r ∈ front, p.finished.findRule ref.ruleId = some r ∧ ref.ruleId ∉ [2, 4] := by
  obtain ⟨text, hresult⟩ := process_twoRules
  obtain ⟨p, -, -, remaining, hleft, front, hnodes, -, hmembers⟩ :=
    process_exhausts memorySite twoImages parse_twoRules isEnabled_twoSheet hresult
  have completes : (buildGroups memorySite [barGroup]
      (startOf memorySite twoImages twoSheet "a.css")).2 = .ok () := by decide +kernel
  have hfirst : buildGroups memorySite [barGroup]
      (startOf memorySite twoImages twoSheet "a.css") = (_, .ok ()) := Prod.ext rfl completes
  have hformed : (groups twoSheet).reverse = [barGroup] ++ [dotGroup] := by
    rw [groups_twoSheet]
    rfl
  exact ⟨parse_twoRules, isEnabled_twoSheet, text, p, _, hresult, hfirst,
    remaining _ _ _ hformed hfirst, hleft, front, hnodes, hmembers⟩

end Spriting.Build

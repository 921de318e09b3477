import Spriting.Proofs.Background.Holding
import Spriting.Proofs.Background.Partition

/-!
# What remains to be grouped

A rule that shows its image out of a sprite sheet positions its background, and a rule that
does so is in no group.  So placing a group takes it out of the groups of the sheet, and the
rules of the other groups do not notice.

* `Places.takes`: what placing a group makes of the images of every node;
* `Places.groups`: the groups that remain when a group has been placed.
-/

namespace Spriting.Background

open Css Layout

variable {sprite : SpriteMap} {resolve : String → String} {sheet last : Stylesheet} {g : Group}
  {r r' : Rule} {box : Box} {url : String} {refs : List (GroupKey × Reference)}

/-! ## Groups of fewer images -/

theorem candidate_of_positioned (h : isPositioned r = true) : candidate r = none := by
  rw [candidate, Option.map_eq_none_iff, Option.filter_eq_none_iff]
  intro ref _
  simp [isEligible, h]

/-- Without the images of one key its group is gone and the others are the same. -/
theorem gather_filter_ne (refs : List (GroupKey × Reference)) (key : GroupKey) :
    gather (refs.filter fun p => !p.1 == key) = (gather refs).filter fun g => !g.key == key := by
  rw [gather, eraseDups_filter_ne Prod.fst key refs, gather, List.filter_map]
  apply List.map_congr_left
  intro k hk
  have hne : k ≠ key := by simpa using (List.mem_filter.1 hk).2
  rw [List.filter_filter]
  congr 2
  apply List.filter_congr
  intro p _
  by_cases hp : p.1 = k
  · simp [hp, hne]
  · simp [hp]

theorem gather_eq_nil_iff : gather refs = [] ↔ refs = [] := by
  cases refs <;> simp [gather, List.eraseDups_cons]

theorem groups_eq_nil_iff : groups sheet = [] ↔ ∀ r ∈ sheet.rules, candidate r = none := by
  rw [groups, gather_eq_nil_iff, List.filterMap_eq_nil_iff]

/-! ## What a placed group leaves -/

/-- A rule that points into a sprite sheet positions its background. -/
theorem Points.positioned (h : Points sprite box url r r') : isPositioned r' = true := by
  obtain ⟨d, before, after, id, -, -, -, rfl⟩ := h
  rw [isPositioned, Rule.hasProperty, List.any_eq_true]
  refine ⟨positionDeclaration box d.id, ?_, ?_⟩
  · simp [Rule.declarations, BodyItem.declaration?]
  · exact beq_self_eq_true _

/-- Placing a group that has a box for every member takes its own images and no other. -/
theorem Places.takes (h : Places sprite resolve sheet g.members last) (hsheet : sheet.Distinct)
    (hg : g ∈ groups sheet)
    (hbox : ∀ ref ∈ g.members, ∃ box, sprite.placements.lookup (resolve ref.url) = some box) :
    List.Forall₂ (fun n n' => offerOf n' = (offerOf n).filter fun p => !p.1 == g.key)
      sheet.nodes last.nodes := by
  have hids := hsheet.ruleIds_nodup
  have hmembers := members_ruleIds_nodup hids hg
  refine forall₂_of_getElem? h.length ?_
  intro k n n' hnode hlast
  by_cases hmember : ∃ r ref, n = .rule r ∧ candidate r = some (g.key, ref)
  · -- the rule of a member points into the sprite sheet now
    obtain ⟨r, ref, rfl, hc⟩ := hmember
    have hr : r ∈ sheet.rules := Stylesheet.mem_rules_of_getElem? hnode
    have href : ref ∈ g.members :=
      (mem_gather_members hg).2 (List.mem_filterMap.2 ⟨r, hr, hc⟩)
    obtain ⟨box, hlookup⟩ := hbox ref href
    obtain ⟨r', hr', hpoints⟩ := h.points hids hmembers href hnode
      (hsheet.body_nodup (List.mem_of_getElem? hnode)) (candidate_spec hc).1 hlookup
    cases hlast.symm.trans hr'
    change candidate r' = (candidate r).filter _
    rw [candidate_of_positioned hpoints.positioned, hc]
    simp [Option.filter]
  · -- and no member has led to any other node
    have same : last.nodes[k]? = sheet.nodes[k]? := by
      apply h.frame
      intro r hr hmem
      obtain ⟨ref, href, hid⟩ := List.mem_map.1 hmem
      cases hnode.symm.trans hr
      exact hmember ⟨r, ref, rfl, candidate_of_ruleId hids
        (Stylesheet.mem_rules_of_getElem? hr) hg href hid⟩
    rw [hlast, hnode] at same
    cases same
    cases hoffer : offerOf n with
    | none => rfl
    | some p =>
      obtain ⟨r, rfl, hc⟩ := offerOf_eq_some_iff.1 hoffer
      have hne : p.1 ≠ g.key := fun hkey => hmember ⟨r, p.2, rfl, hkey ▸ hc⟩
      simp [Option.filter, hne]

/-- When a group has been placed, the others remain in their order. -/
theorem Places.groups (h : Places sprite resolve sheet g.members last) (hsheet : sheet.Distinct)
    (hg : g ∈ groups sheet)
    (hbox : ∀ ref ∈ g.members, ∃ box, sprite.placements.lookup (resolve ref.url) = some box) :
    Background.groups last = (Background.groups sheet).filter fun g' => !g'.key == g.key := by
  have images := filterMap_of_forall₂ (h.takes hsheet hg hbox)
  rw [filterMap_offerOf, filterMap_offerOf] at images
  rw [Background.groups, Stylesheet.rules, images, gather_filter_ne]
  rfl

end Spriting.Background

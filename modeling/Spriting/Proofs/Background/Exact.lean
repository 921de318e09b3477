import Spriting.Proofs.Background.Holding

/-!
# Placing a group is exact

What placing makes of every node of the sheet, text by text: a rule shows the box of the
member that leads to it, and a node to which no member with a box leads stays as it is.

* `Moved`: what placing targets makes of a node;
* `Places.moved`: placing members one after another moves each node once at most.
-/

namespace Spriting.Background

open Css Layout

variable {sprite : SpriteMap} {resolve : String → String} {sheet last : Stylesheet}
  {refs : List Reference} {highest : Int} {ts : List Target} {n n' : Node}

/-- What placing targets makes of a node, in a sheet whose last id is `highest`. -/
inductive Moved (highest : Int) (ts : List Target) : Node → Node → Prop where
  /-- A node to which no target leads stays as it is. -/
  | kept {n : Node} : (∀ r, n = .rule r → ∀ t ∈ ts, t.ref.ruleId ≠ r.id) → Moved highest ts n n
  /-- In the rule of a target a position takes the place of the declaration and its id, and
  the size of the sprite sheet comes last and has a fresh id. -/
  | moved {t : Target} {r : Rule} {d : Declaration} {before after : List BodyItem} {id : Int} :
    t ∈ ts → t.ref.ruleId = r.id → t.ref.declarationId = d.id → highest < id →
    r.body = before ++ .declaration d :: after → (∀ item ∈ before, item.id ≠ d.id) →
    Moved highest ts (.rule r) (.rule { r with
      body := before ++
        .declaration ⟨"background-position",
          toUnit (-t.box.x) ++ " " ++ toUnit (-t.box.y), d.id⟩ :: after ++
        [.declaration ⟨"background-size", toUnit t.width ++ " " ++ toUnit t.height, id⟩] })

theorem Places.moved (h : Places sprite resolve sheet refs last) (hsheet : sheet.Numbered)
    (hrefs : (refs.map Reference.ruleId).Nodup) (hleads : ∀ ref ∈ refs, Leads sheet ref) :
    List.Forall₂ (Moved sheet.lastId (targets sprite resolve refs)) sheet.nodes last.nodes := by
  have hids := hsheet.distinct.ruleIds_nodup
  refine forall₂_of_getElem? h.length ?_
  intro k n n' hnode hlast
  by_cases htarget : ∃ r, n = .rule r ∧
      ∃ t ∈ targets sprite resolve refs, t.ref.ruleId = r.id
  · obtain ⟨r, rfl, t, ht, hid⟩ := htarget
    obtain ⟨href, hbox, hwidth, hheight⟩ := mem_targets_iff.1 ht
    -- the rule that the target leads to is the one at `k`
    obtain ⟨found, hfound, hd⟩ := hleads t.ref href
    rw [hid, Stylesheet.findRule_of_mem hids (Stylesheet.mem_rules_of_getElem? hnode)] at hfound
    cases hfound
    obtain ⟨d, hd, hdid⟩ := List.mem_map.1 hd
    have hbody := hsheet.distinct.body_nodup (List.mem_of_getElem? hnode)
    obtain ⟨r', id, hr', hfresh, before, after, hsplit, hfirst, rfl⟩ :=
      h.moves hids hrefs href hnode hbody hid hd hdid.symm hbox
    cases hlast.symm.trans hr'
    have size : sizeDeclaration sprite id =
        ⟨"background-size", toUnit t.width ++ " " ++ toUnit t.height, id⟩ := by
      rw [hwidth, hheight]
      rfl
    rw [size]
    exact .moved ht hid hdid.symm hfresh hsplit hfirst
  · have same : last.nodes[k]? = sheet.nodes[k]? := by
      apply h.kept
      intro r hr ref href hid
      cases hnode.symm.trans hr
      cases hlookup : sprite.placements.lookup (resolve ref.url) with
      | none => rfl
      | some box =>
        have ht : ⟨ref, box, sprite.width, sprite.height⟩ ∈ targets sprite resolve refs :=
          mem_targets_iff.2 ⟨href, hlookup, rfl, rfl⟩
        exact absurd ⟨r, rfl, _, ht, hid⟩ htarget
    rw [hlast, hnode] at same
    cases same
    exact .kept fun r hr t ht hid => htarget ⟨r, hr, t, ht, hid⟩

/-- **Placing a group is exact.** Where no two ids agree and no two members lead to the same
rule, placing the members makes of every node just what their boxes ask for: in the rule of a
member with a box one declaration is replaced and one added, and all else is kept.  The members
without a box are the ones that are skipped, in their order, and the rule that names the sprite
sheet lists the selectors of the others in theirs. -/
theorem placeGroup_exact (sheet : Stylesheet) (refs : List Reference) (sprite : SpriteMap)
    (url : String) (resolve : String → String) (hsheet : sheet.Numbered)
    (hrefs : (refs.map Reference.ruleId).Nodup) (hleads : ∀ ref ∈ refs, Leads sheet ref) :
    let placed := placeGroup sheet refs sprite url resolve
    let selectors :=
      (targets sprite resolve refs).flatMap fun t => selectorsAt sheet t.ref.ruleId
    List.Forall₂ (Moved sheet.lastId (targets sprite resolve refs)) sheet.nodes
        placed.sheet.nodes ∧
      placed.sheet.Numbered ∧
      placed.skipped =
        refs.filter (fun ref => (sprite.placements.lookup (resolve ref.url)).isNone) ∧
      placed.result = .ok (if selectors = [] then none else some (sheetRule url selectors)) := by
  intro placed selectors
  obtain ⟨hskipped, hselectors⟩ := placeMembers_of_leads sprite resolve hleads
  have places : Places sprite resolve sheet refs placed.sheet := places_of_placeMembers hselectors
  refine ⟨places.moved hsheet hrefs hleads, places.numbered hsheet, hskipped, ?_⟩
  change Except.map _ (placeMembers sprite resolve sheet refs).selectors = _
  rw [hselectors]
  rfl

/-- The last rule comes first in the group, and the one in the middle has no box. -/
theorem placeGroup_exact_middle_skipped :
    let a : Rule :=
      { selectors := ["a"], body := [.declaration ⟨"background", "url(a.png)", 2⟩], id := 1 }
    let b : Rule :=
      { selectors := ["b"], body := [.declaration ⟨"background", "url(b.png)", 4⟩], id := 3 }
    let c : Rule :=
      { selectors := ["c"], body := [.declaration ⟨"background", "url(c.png)", 6⟩], id := 5 }
    let sheet : Stylesheet := ⟨[.rule a, .rule b, .rule c], 6⟩
    let refs : List Reference :=
      [⟨"c.png", 5, 6, ["c"]⟩, ⟨"b.png", 3, 4, ["b"]⟩, ⟨"a.png", 1, 2, ["a"]⟩]
    let sprite : SpriteMap := ⟨4, 2, [("a.png", ⟨0, 0, 2, 2⟩), ("c.png", ⟨2, 0, 2, 2⟩)]⟩
    let placed := placeGroup sheet refs sprite "s.png" id
    sheet.Numbered ∧ (refs.map Reference.ruleId).Nodup ∧ (∀ ref ∈ refs, Leads sheet ref) ∧
      List.Forall₂ (Moved 6 (targets sprite id refs)) sheet.nodes placed.sheet.nodes ∧
      placed.sheet.Numbered ∧ placed.skipped = [⟨"b.png", 3, 4, ["b"]⟩] ∧
      placed.result = .ok (some (sheetRule "s.png" ["c", "a"])) := by
  intro a b c sheet refs sprite placed
  have distinct : (sheet.nodes.flatMap Node.ids).Nodup := by decide
  have numbered : sheet.Numbered := ⟨distinct, by decide⟩
  have apart : (refs.map Reference.ruleId).Nodup := by decide
  have leads : ∀ ref ∈ refs, Leads sheet ref :=
    List.forall_mem_cons.2 ⟨⟨c, rfl, by decide⟩, List.forall_mem_cons.2 ⟨⟨b, rfl, by decide⟩,
      List.forall_mem_singleton.2 ⟨a, rfl, by decide⟩⟩⟩
  obtain ⟨moved, renumbered, skipped, result⟩ :=
    placeGroup_exact sheet refs sprite "s.png" id numbered apart leads
  exact ⟨numbered, apart, leads, moved, renumbered, skipped.trans (by decide),
    result.trans (by decide)⟩

end Spriting.Background

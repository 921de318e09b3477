import Spriting.Background.Placement
import Spriting.Proofs.Background.Grouping

/-!
# Placing a group changes its rules and nothing else

Placing goes through the members one after another.  A step changes the rule of
its member only, so where no two members have the same rule, every rule with a
placement is changed exactly once.

* `Places.kept`, `Places.frame`: what belongs to no member stays as it is;
* `Places.moves`: the rule of a member with a box shows it;
* `Places.points`: so where the member is its image, the rule points into the sprite sheet.
-/

namespace Spriting.Background

open Css Layout

variable {sprite : SpriteMap} {resolve : String → String} {sheet last : Stylesheet}
  {refs : List Reference}

/-- `refs` can be placed one after another, and `last` is what `sheet` becomes. -/
inductive Places (sprite : SpriteMap) (resolve : String → String) :
    Stylesheet → List Reference → Stylesheet → Prop where
  | done (sheet : Stylesheet) : Places sprite resolve sheet [] sheet
  | skip {ref : Reference} {sheet last : Stylesheet} {refs : List Reference} :
    sprite.placements.lookup (resolve ref.url) = none → Places sprite resolve sheet refs last →
    Places sprite resolve sheet (ref :: refs) last
  | place {ref : Reference} {box : Box} {r positioned : Rule} {sheet last : Stylesheet}
      {refs : List Reference} :
    sprite.placements.lookup (resolve ref.url) = some box → sheet.findRule ref.ruleId = some r →
    { r with
        body := r.body ++ [.declaration (sizeDeclaration sprite sheet.newId.1)] : Rule
      }.replaceDeclaration ref.declarationId (positionDeclaration box ref.declarationId) =
        some positioned →
    Places sprite resolve (sheet.newId.2.setRule ref.ruleId positioned) refs last →
    Places sprite resolve sheet (ref :: refs) last

theorem places_of_placeMembers {selectors : List String}
    (h : (placeMembers sprite resolve sheet refs).selectors = .ok selectors) :
    Places sprite resolve sheet refs (placeMembers sprite resolve sheet refs).sheet := by
  induction refs generalizing sheet selectors with
  | nil => exact .done sheet
  | cons ref refs ih =>
    unfold placeMembers at h ⊢
    split at h
    · rename_i hlookup
      exact .skip hlookup (ih h)
    · rename_i box hlookup
      cases hfind : sheet.findRule ref.ruleId with
      | none =>
        simp only [hfind] at h
        cases h
      | some r =>
        simp only [hfind] at h ⊢
        split at h
        · cases h
        · rename_i positioned hreplace
          cases hrest : (placeMembers sprite resolve (sheet.newId.2.setRule ref.ruleId positioned)
              refs).selectors with
          | error e =>
            simp only [hrest] at h
            cases h
          | ok rest => exact .place hlookup hfind hreplace (ih hrest)

theorem places_of_placeGroup {url : String} {rule : Option Rule}
    (h : (placeGroup sheet refs sprite url resolve).result = .ok rule) :
    Places sprite resolve sheet refs (placeGroup sheet refs sprite url resolve).sheet := by
  cases hselectors : (placeMembers sprite resolve sheet refs).selectors with
  | error cause =>
    simp only [placeGroup, hselectors] at h
    cases h
  | ok selectors => exact places_of_placeMembers hselectors

/-- The rule that names a sprite sheet comes without ids. -/
theorem unnumbered_of_placeGroup {url : String} {rule : Rule}
    (h : (placeGroup sheet refs sprite url resolve).result = .ok (some rule)) :
    (Node.rule rule).Unnumbered := by
  cases hselectors : (placeMembers sprite resolve sheet refs).selectors with
  | error cause =>
    simp only [placeGroup, hselectors] at h
    cases h
  | ok selectors =>
    simp only [placeGroup, hselectors, Except.map] at h
    split at h
    · cases h
    · cases h
      simp [Node.Unnumbered, Node.ids, sheetRule, BodyItem.id]

/-! ## What a step keeps -/

theorem newId_frame (sheet : Stylesheet) : sheet.newId.2.nodes = sheet.nodes := rfl

theorem newId_ruleIds (sheet : Stylesheet) : sheet.newId.2.ruleIds = sheet.ruleIds := rfl

/-- What belongs to no member that has a box stays as it is. -/
theorem Places.kept (h : Places sprite resolve sheet refs last) {k : Nat}
    (hk : ∀ r, sheet.nodes[k]? = some (.rule r) → ∀ ref ∈ refs, ref.ruleId = r.id →
      sprite.placements.lookup (resolve ref.url) = none) : last.nodes[k]? = sheet.nodes[k]? := by
  induction h with
  | done => rfl
  | skip _ _ ih => exact ih fun r hr ref href => hk r hr ref (List.mem_cons_of_mem _ href)
  | @place ref box found positioned sheet last refs hlookup _ _ _ ih =>
    have step : (sheet.newId.2.setRule ref.ruleId positioned).nodes[k]? = sheet.nodes[k]? := by
      refine Stylesheet.setRule_frame positioned fun r hr hid => ?_
      rw [hk r hr ref List.mem_cons_self hid.symm] at hlookup
      cases hlookup
    rw [ih, step]
    rw [step]
    exact fun r hr ref href => hk r hr ref (List.mem_cons_of_mem _ href)

/-- What belongs to no member stays as it is. -/
theorem Places.frame (h : Places sprite resolve sheet refs last) {k : Nat}
    (hk : ∀ r, sheet.nodes[k]? = some (.rule r) → r.id ∉ refs.map Reference.ruleId) :
    last.nodes[k]? = sheet.nodes[k]? :=
  h.kept fun r hr _ href hid => absurd (List.mem_map.2 ⟨_, href, hid⟩) (hk r hr)

theorem Places.ruleIds (h : Places sprite resolve sheet refs last) :
    last.ruleIds = sheet.ruleIds := by
  induction h with
  | done => rfl
  | skip _ _ ih => exact ih
  | place _ hfind hreplace _ ih =>
    rw [ih, Stylesheet.setRule_ruleIds, newId_ruleIds]
    rw [replaceDeclaration_id hreplace]
    simpa using List.find?_some hfind

theorem Places.length (h : Places sprite resolve sheet refs last) :
    last.nodes.length = sheet.nodes.length := by
  induction h with
  | done => rfl
  | skip _ _ ih => exact ih
  | place _ _ _ _ ih => rw [ih, Stylesheet.setRule_length, newId_frame]

theorem Places.lastId_le (h : Places sprite resolve sheet refs last) :
    sheet.lastId ≤ last.lastId := by
  induction h with
  | done => exact Int.le_refl _
  | skip _ _ ih => exact ih
  | @place _ _ _ _ sheet _ _ _ _ _ _ ih =>
    exact Int.le_trans (Int.le_of_lt (Int.lt_succ sheet.lastId)) ih

/-! ## What placing a member makes of its rule -/

/-- In `r'` a position has taken the place of the declaration `d` of `r`, so that `box` shows,
and a last declaration with the id `id` tells the size of the sprite sheet; all else is as
in `r`. -/
def Moves (sprite : SpriteMap) (box : Box) (d : Declaration) (id : Int) (r r' : Rule) : Prop :=
  ∃ before after, r.body = before ++ .declaration d :: after ∧
    (∀ item ∈ before, item.id ≠ d.id) ∧
    r' = { r with
      body := before ++ .declaration (positionDeclaration box d.id) :: after ++
        [.declaration (sizeDeclaration sprite id)] }

/-- Replacing a declaration of a rule with a size moves the rule. -/
theorem moves_of_replace {box : Box} {r positioned : Rule} {d : Declaration} {id : Int}
    (hbody : (r.body.map BodyItem.id).Nodup) (hd : d ∈ r.declarations)
    (h : { r with body := r.body ++ [.declaration (sizeDeclaration sprite id)] : Rule
      }.replaceDeclaration d.id (positionDeclaration box d.id) = some positioned) :
    Moves sprite box d id r positioned := by
  obtain ⟨before, after, hsplit, hfirst⟩ := exists_body_split hbody hd
  refine ⟨before, after, hsplit, hfirst, ?_⟩
  have hbefore : r.body ++ [.declaration (sizeDeclaration sprite id)] =
      before ++ .declaration d :: (after ++ [.declaration (sizeDeclaration sprite id)]) := by
    simp [hsplit]
  rw [replaceDeclaration_at _ hbefore hfirst] at h
  cases h
  simp

/-- The rule of a member with a box is moved, and its size gets a fresh id. -/
theorem Places.moves (h : Places sprite resolve sheet refs last) (hids : sheet.ruleIds.Nodup)
    (hrefs : (refs.map Reference.ruleId).Nodup) {ref : Reference} {r : Rule} {d : Declaration}
    {k : Nat} {box : Box} (hmem : ref ∈ refs) (hk : sheet.nodes[k]? = some (.rule r))
    (hbody : (r.body.map BodyItem.id).Nodup) (hid : ref.ruleId = r.id)
    (hd : d ∈ r.declarations) (hdid : ref.declarationId = d.id)
    (hbox : sprite.placements.lookup (resolve ref.url) = some box) :
    ∃ r' id, last.nodes[k]? = some (.rule r') ∧ sheet.lastId < id ∧
      Moves sprite box d id r r' := by
  induction h with
  | done => cases hmem
  | skip hlookup _ ih =>
    rcases List.mem_cons.1 hmem with rfl | hmem
    · rw [hlookup] at hbox
      cases hbox
    · exact ih hids (List.nodup_cons.1 hrefs).2 hmem hk
  | @place head box' found positioned sheet last refs hlookup hfind hreplace hrest ih =>
    obtain ⟨hnot, hrefs⟩ := List.nodup_cons.1 hrefs
    have hfound : found.id = head.ruleId := by simpa using List.find?_some hfind
    have keeps : positioned.id = head.ruleId := (replaceDeclaration_id hreplace).trans hfound
    rcases List.mem_cons.1 hmem with rfl | hmem
    · rw [hlookup] at hbox
      cases hbox
      -- the rule found by id is the one at `k`, and no later step comes back to it
      rw [hid, Stylesheet.findRule_of_mem hids (Stylesheet.mem_rules_of_getElem? hk)] at hfind
      cases hfind
      have placed : (sheet.newId.2.setRule ref.ruleId positioned).nodes[k]? =
          some (.rule positioned) := by
        rw [hid]
        exact Stylesheet.setRule_of_getElem? positioned hids hk
      rw [hdid] at hreplace
      refine ⟨positioned, sheet.newId.1, ?_, ?_, moves_of_replace hbody hd hreplace⟩
      · rw [hrest.frame, placed]
        intro r' hr'
        rw [placed] at hr'
        cases hr'
        rw [keeps]
        exact hnot
      · exact Int.lt_succ sheet.lastId
    · have later : (sheet.newId.2.setRule head.ruleId positioned).nodes[k]? =
          some (.rule r) := by
        rw [Stylesheet.setRule_frame]
        · exact hk
        · intro r' hr' hsame
          rw [newId_frame, hk] at hr'
          cases hr'
          exact hnot (hsame ▸ hid ▸ List.mem_map_of_mem hmem)
      have hids' : (sheet.newId.2.setRule head.ruleId positioned).ruleIds.Nodup := by
        rw [Stylesheet.setRule_ruleIds keeps]
        exact hids
      obtain ⟨r', id, hr', hlt, hmoves⟩ := ih hids' hrefs hmem later
      exact ⟨r', id, hr', Int.lt_trans (Int.lt_succ sheet.lastId) hlt, hmoves⟩

/-- In `r'` the declaration that decides on the image `url` of `r` moves the sprite sheet
so that `box` shows, and a last declaration tells the size of the sprite sheet; all else
is as in `r`. -/
def Points (sprite : SpriteMap) (box : Box) (url : String) (r r' : Rule) : Prop :=
  ∃ d before after id, Decides r d url ∧
    r.body = before ++ .declaration d :: after ∧ (∀ item ∈ before, item.id ≠ d.id) ∧
    r' = { r with
      body := before ++ .declaration (positionDeclaration box d.id) :: after ++
        [.declaration (sizeDeclaration sprite id)] }

/-- The rule of a member with a placement points into the sprite sheet. -/
theorem Places.points (h : Places sprite resolve sheet refs last) (hids : sheet.ruleIds.Nodup)
    (hrefs : (refs.map Reference.ruleId).Nodup) {ref : Reference} {r : Rule} {k : Nat} {box : Box}
    (hmem : ref ∈ refs) (hk : sheet.nodes[k]? = some (.rule r))
    (hbody : (r.body.map BodyItem.id).Nodup) (href : findImage r = some ref)
    (hbox : sprite.placements.lookup (resolve ref.url) = some box) :
    ∃ r', last.nodes[k]? = some (.rule r') ∧ Points sprite box ref.url r r' := by
  obtain ⟨hid, -, d, hdecides, hd⟩ := findImage_spec href
  obtain ⟨r', id, hr', -, before, after, hmoves⟩ :=
    h.moves hids hrefs hmem hk hbody hid hdecides.mem hd hbox
  exact ⟨r', hr', d, before, after, id, hdecides, hmoves⟩

end Spriting.Background

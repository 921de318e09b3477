import Mathlib.Data.List.Nodup
import Spriting.Proofs.Css.Numbering

/-!
# Finding and changing rules by id

Where the ids of the rules differ, the rule with an id is found wherever it
stands, and a rule put in its place leaves every other node alone.

* `findRule_of_mem`, `setRule_of_getElem?`: the rule with the id is the one
  that is found and replaced;
* `setRule_frame`: everything else stays where it is;
* `findRule_setRule`: the rule that was put in is found under the id from then on;
* `replaceDeclaration_at`: the declaration with the id is the one that is replaced;
* `exists_replaceDeclaration`, `replaceDeclaration_ids`: whatever is found under an id
  can be replaced, and a replacement with the same id is found under it again.
-/

namespace Spriting.Css

namespace Stylesheet

/-- The ids of the rules of a sheet. -/
def ruleIds (sheet : Stylesheet) : List Int := sheet.rules.map Rule.id

theorem Distinct.ruleIds_nodup {sheet : Stylesheet} (h : sheet.Distinct) : sheet.ruleIds.Nodup := by
  refine List.Nodup.sublist ?_ h
  unfold ruleIds rules
  induction sheet.nodes with
  | nil => exact List.Sublist.slnil
  | cons node nodes ih =>
    rw [List.flatMap_cons]
    cases node with
    | rule r =>
      simp only [List.filterMap_cons, Node.rule?, List.map_cons, Node.ids, List.cons_append]
      exact (ih.trans (List.sublist_append_right _ _)).cons_cons _
    | comment c => exact ih.trans (List.sublist_append_right _ _)
    | atRule a => exact ih.trans (List.sublist_append_right _ _)

/-- No two items of the body of a rule have the same id. -/
theorem Distinct.body_nodup {sheet : Stylesheet} {r : Rule} (h : sheet.Distinct)
    (hr : .rule r ∈ sheet.nodes) : (r.body.map BodyItem.id).Nodup := by
  have hids : (Node.rule r).ids.Nodup := (List.nodup_flatMap.1 h).1 _ hr
  exact (List.nodup_cons.1 hids).2

theorem mem_rules_of_getElem? {sheet : Stylesheet} {k : Nat} {r : Rule}
    (h : sheet.nodes[k]? = some (.rule r)) : r ∈ sheet.rules :=
  List.mem_filterMap.2 ⟨_, List.mem_of_getElem? h, rfl⟩

/-- Two rules with one id are the same rule. -/
theorem eq_of_ruleIds_nodup {sheet : Stylesheet} {r r' : Rule} (hn : sheet.ruleIds.Nodup)
    (h : r ∈ sheet.rules) (h' : r' ∈ sheet.rules) (hid : r.id = r'.id) : r = r' :=
  List.inj_on_of_nodup_map hn h h' hid

theorem findRule_of_mem {sheet : Stylesheet} {r : Rule} (hn : sheet.ruleIds.Nodup)
    (h : r ∈ sheet.rules) : sheet.findRule r.id = some r := by
  cases hf : sheet.findRule r.id with
  | none =>
    have := List.find?_eq_none.1 hf r h
    simp at this
  | some r' =>
    have hid : r'.id = r.id := by simpa using List.find?_some hf
    rw [eq_of_ruleIds_nodup hn (List.mem_of_find?_eq_some hf) h hid]

/-! ## Putting a rule in the place of another -/

/-- A node that is no rule with the id stays where it is. -/
theorem setRule_frame {sheet : Stylesheet} {id : Int} {k : Nat} (new : Rule)
    (h : ∀ r, sheet.nodes[k]? = some (.rule r) → r.id ≠ id) :
    (sheet.setRule id new).nodes[k]? = sheet.nodes[k]? := by
  change (setRule.setIn id new sheet.nodes)[k]? = _
  generalize sheet.nodes = nodes at h
  induction nodes generalizing k with
  | nil => rfl
  | cons node nodes ih =>
    cases k with
    | zero =>
      cases node with
      | rule r =>
        have : r.id ≠ id := h r rfl
        simp [setRule.setIn, this]
      | comment c => rfl
      | atRule a => rfl
    | succ k =>
      have ih := ih (k := k) h
      cases node with
      | rule r =>
        simp only [setRule.setIn]
        split
        · rfl
        · exact ih
      | comment c => exact ih
      | atRule a => exact ih

theorem setRule_of_getElem? {sheet : Stylesheet} {k : Nat} {r : Rule} (new : Rule)
    (hn : sheet.ruleIds.Nodup) (h : sheet.nodes[k]? = some (.rule r)) :
    (sheet.setRule r.id new).nodes[k]? = some (.rule new) := by
  change (setRule.setIn r.id new sheet.nodes)[k]? = _
  unfold ruleIds rules at hn
  generalize sheet.nodes = nodes at h hn
  induction nodes generalizing k with
  | nil => cases h
  | cons node nodes ih =>
    cases k with
    | zero =>
      cases h
      simp [setRule.setIn]
    | succ k =>
      have h : nodes[k]? = some (.rule r) := h
      cases node with
      | rule old =>
        simp only [List.filterMap_cons, Node.rule?, List.map_cons, List.nodup_cons] at hn
        have hne : old.id ≠ r.id := by
          intro hid
          refine hn.1 (hid ▸ List.mem_map_of_mem ?_)
          exact List.mem_filterMap.2 ⟨_, List.mem_of_getElem? h, rfl⟩
        simp only [setRule.setIn, if_neg hne]
        exact ih h hn.2
      | comment c => exact ih h hn
      | atRule a => exact ih h hn

/-- A rule with the same id leaves the ids of the rules as they are. -/
theorem setRule_ruleIds {sheet : Stylesheet} {id : Int} {new : Rule} (h : new.id = id) :
    (sheet.setRule id new).ruleIds = sheet.ruleIds := by
  change ((setRule.setIn id new sheet.nodes).filterMap Node.rule?).map Rule.id = _
  unfold ruleIds rules
  induction sheet.nodes with
  | nil => rfl
  | cons node nodes ih =>
    cases node with
    | rule old =>
      simp only [setRule.setIn]
      split
      · rename_i hold
        simp [Node.rule?, h, hold]
      · simpa [Node.rule?] using ih
    | comment c => exact ih
    | atRule a => exact ih

/-- The rule that is found is the one that is replaced. -/
theorem exists_split_of_findRule {sheet : Stylesheet} {id : Int} {r : Rule}
    (h : sheet.findRule id = some r) :
    ∃ before after, sheet.nodes = before ++ .rule r :: after ∧
      ∀ new, (sheet.setRule id new).nodes = before ++ .rule new :: after := by
  change ∃ before after, _ ∧ ∀ new, setRule.setIn id new sheet.nodes = _
  unfold findRule rules at h
  generalize sheet.nodes = nodes at h ⊢
  induction nodes with
  | nil => cases h
  | cons node nodes ih =>
    cases node with
    | comment c =>
      obtain ⟨before, after, rfl, hset⟩ := ih h
      exact ⟨.comment c :: before, after, rfl, fun new => congrArg _ (hset new)⟩
    | atRule a =>
      obtain ⟨before, after, rfl, hset⟩ := ih h
      exact ⟨.atRule a :: before, after, rfl, fun new => congrArg _ (hset new)⟩
    | rule old =>
      by_cases hold : old.id = id
      · obtain rfl : old = r := by simpa [Node.rule?, hold] using h
        exact ⟨[], nodes, rfl, fun new => by simp [setRule.setIn, hold]⟩
      · obtain ⟨before, after, rfl, hset⟩ := ih (by simpa [Node.rule?, hold] using h)
        exact ⟨.rule old :: before, after, rfl, fun new => by simp [setRule.setIn, hold, hset]⟩

theorem setRule_length (sheet : Stylesheet) (id : Int) (new : Rule) :
    (sheet.setRule id new).nodes.length = sheet.nodes.length := by
  change (setRule.setIn id new sheet.nodes).length = _
  induction sheet.nodes with
  | nil => rfl
  | cons node nodes ih =>
    cases node with
    | rule old =>
      simp only [setRule.setIn]
      split
      · rfl
      · simp [ih]
    | comment c => simp [setRule.setIn, ih]
    | atRule a => simp [setRule.setIn, ih]

theorem findRule_setRule {sheet : Stylesheet} {id : Int} {new : Rule} (hnew : new.id = id)
    (j : Int) : (sheet.setRule id new).findRule j =
      if j = id then (sheet.findRule id).map fun _ => new else sheet.findRule j := by
  change ((setRule.setIn id new sheet.nodes).filterMap Node.rule?).find? (·.id == j) = _
  unfold findRule rules
  induction sheet.nodes with
  | nil => simp [setRule.setIn]
  | cons node nodes ih =>
    cases node with
    | comment c => exact ih
    | atRule a => exact ih
    | rule old =>
      simp only [setRule.setIn]
      by_cases hold : old.id = id
      · by_cases hj : j = id
        · simp [Node.rule?, hold, hnew, hj]
        · have hne : id ≠ j := fun h => hj h.symm
          simp [Node.rule?, hold, hnew, hj, hne]
      · by_cases hj : old.id = j
        · have hne : j ≠ id := fun h => hold (hj.trans h)
          simp [Node.rule?, hj, hne]
        · simpa [Node.rule?, hold, hj] using ih

end Stylesheet

/-! ## Declarations of a rule -/

theorem id_mem_ids {r : Rule} {d : Declaration} (h : d ∈ r.declarations) :
    d.id ∈ (Node.rule r).ids := by
  obtain ⟨item, hitem, hsome⟩ := List.mem_filterMap.1 h
  cases item with
  | comment c => cases hsome
  | declaration d' =>
    cases hsome
    exact List.mem_cons_of_mem _ (List.mem_map.2 ⟨_, hitem, rfl⟩)

theorem declarations_ids_nodup {r : Rule} (h : (r.body.map BodyItem.id).Nodup) :
    (r.declarations.map Declaration.id).Nodup := by
  refine h.sublist ?_
  unfold Rule.declarations
  induction r.body with
  | nil => exact List.Sublist.slnil
  | cons item items ih =>
    cases item with
    | declaration d => exact ih.cons_cons _
    | comment c => exact ih.trans (List.sublist_cons_self _ _)

/-! ## Putting a declaration in the place of another -/

theorem exists_findDeclaration_iff {r : Rule} {id : Int} :
    (∃ d, r.findDeclaration id = some d) ↔ id ∈ r.declarations.map Declaration.id := by
  rw [← Option.isSome_iff_exists, Rule.findDeclaration, List.find?_isSome]
  simp

theorem exists_replaceDeclaration {r : Rule} {id : Int} (new : Declaration)
    (h : id ∈ r.declarations.map Declaration.id) :
    ∃ r', r.replaceDeclaration id new = some r' := by
  have replaced : ∃ body, Rule.replaceDeclaration.replaceIn id new r.body = some body := by
    unfold Rule.declarations at h
    generalize r.body = items at h ⊢
    induction items with
    | nil => simp at h
    | cons item items ih =>
      cases item with
      | comment c =>
        obtain ⟨body, hbody⟩ := ih (by simpa [BodyItem.declaration?] using h)
        exact ⟨.comment c :: body, by simp [Rule.replaceDeclaration.replaceIn, hbody]⟩
      | declaration old =>
        by_cases hold : old.id = id
        · exact ⟨.declaration new :: items, by simp [Rule.replaceDeclaration.replaceIn, hold]⟩
        · have hrest : id ∈ (items.filterMap BodyItem.declaration?).map Declaration.id := by
            rcases List.mem_cons.1 h with heq | hmem
            · exact absurd heq.symm hold
            · exact hmem
          obtain ⟨body, hbody⟩ := ih hrest
          exact ⟨.declaration old :: body, by simp [Rule.replaceDeclaration.replaceIn, hold, hbody]⟩
  obtain ⟨body, hbody⟩ := replaced
  exact ⟨{ r with body }, by rw [Rule.replaceDeclaration, hbody]; rfl⟩

/-- What is replaced is a declaration with the id, and all else stays as it is. -/
theorem exists_split_of_replaceDeclaration {r r' : Rule} {id : Int} {new : Declaration}
    (h : r.replaceDeclaration id new = some r') :
    ∃ before old after, r.body = before ++ .declaration old :: after ∧ old.id = id ∧
      r' = { r with body := before ++ .declaration new :: after } := by
  obtain ⟨body, hbody, rfl⟩ := Option.map_eq_some_iff.1 h
  have split : ∃ before old after, r.body = before ++ .declaration old :: after ∧ old.id = id ∧
      body = before ++ .declaration new :: after := by
    clear h
    generalize r.body = items at hbody ⊢
    induction items generalizing body with
    | nil => cases hbody
    | cons item items ih =>
      cases item with
      | comment c =>
        obtain ⟨rest, hrest, rfl⟩ := Option.map_eq_some_iff.1 hbody
        obtain ⟨before, old, after, rfl, hold, rfl⟩ := ih rest hrest
        exact ⟨.comment c :: before, old, after, rfl, hold, rfl⟩
      | declaration d =>
        simp only [Rule.replaceDeclaration.replaceIn] at hbody
        split at hbody
        · rename_i hd
          cases hbody
          exact ⟨[], d, items, rfl, hd, rfl⟩
        · obtain ⟨rest, hrest, rfl⟩ := Option.map_eq_some_iff.1 hbody
          obtain ⟨before, old, after, rfl, hold, rfl⟩ := ih rest hrest
          exact ⟨.declaration d :: before, old, after, rfl, hold, rfl⟩
  obtain ⟨before, old, after, hsplit, hold, rfl⟩ := split
  exact ⟨before, old, after, hsplit, hold, rfl⟩

/-- A replacement with the id of what it replaces leaves the ids of the declarations as they are. -/
theorem replaceDeclaration_ids {r r' : Rule} {id : Int} {new : Declaration} (hnew : new.id = id)
    (h : r.replaceDeclaration id new = some r') :
    r'.declarations.map Declaration.id = r.declarations.map Declaration.id := by
  obtain ⟨before, old, after, hbody, hold, rfl⟩ := exists_split_of_replaceDeclaration h
  simp [Rule.declarations, hbody, BodyItem.declaration?, hnew, hold]

theorem replaceDeclaration_body_ids {r r' : Rule} {id : Int} {new : Declaration}
    (hnew : new.id = id) (h : r.replaceDeclaration id new = some r') :
    r'.body.map BodyItem.id = r.body.map BodyItem.id := by
  obtain ⟨before, old, after, hbody, hold, rfl⟩ := exists_split_of_replaceDeclaration h
  simp [hbody, BodyItem.id, hnew, hold]

theorem replaceDeclaration_selectors {r r' : Rule} {id : Int} {new : Declaration}
    (h : r.replaceDeclaration id new = some r') : r'.selectors = r.selectors := by
  obtain ⟨body, -, rfl⟩ := Option.map_eq_some_iff.1 h
  rfl

theorem replaceDeclaration_at {r : Rule} {before after : List BodyItem} {d : Declaration}
    (new : Declaration) (hbody : r.body = before ++ .declaration d :: after)
    (hfirst : ∀ item ∈ before, item.id ≠ d.id) :
    r.replaceDeclaration d.id new =
      some { r with body := before ++ .declaration new :: after } := by
  have replaced : Rule.replaceDeclaration.replaceIn d.id new (before ++ .declaration d :: after) =
      some (before ++ .declaration new :: after) := by
    clear hbody
    induction before with
    | nil => simp [Rule.replaceDeclaration.replaceIn]
    | cons item before ih =>
      obtain ⟨hitem, hbefore⟩ := List.forall_mem_cons.1 hfirst
      cases item with
      | declaration old =>
        have : old.id ≠ d.id := hitem
        simp [Rule.replaceDeclaration.replaceIn, this, ih hbefore]
      | comment c => simp [Rule.replaceDeclaration.replaceIn, ih hbefore]
  rw [Rule.replaceDeclaration, hbody, replaced]
  rfl

theorem replaceDeclaration_id {r r' : Rule} {id : Int} {new : Declaration}
    (h : r.replaceDeclaration id new = some r') : r'.id = r.id := by
  obtain ⟨body, -, rfl⟩ := Option.map_eq_some_iff.1 h
  rfl

/-- A declaration of a rule whose items have different ids stands behind none with its id. -/
theorem exists_body_split {r : Rule} {d : Declaration} (hn : (r.body.map BodyItem.id).Nodup)
    (hd : d ∈ r.declarations) :
    ∃ before after, r.body = before ++ .declaration d :: after ∧
      ∀ item ∈ before, item.id ≠ d.id := by
  obtain ⟨item, hitem, hsome⟩ := List.mem_filterMap.1 hd
  obtain rfl : item = .declaration d := by
    cases item <;> simp_all [BodyItem.declaration?]
  obtain ⟨before, after, hbody⟩ := List.append_of_mem hitem
  refine ⟨before, after, hbody, ?_⟩
  intro item hmem hid
  rw [hbody, List.map_append, List.map_cons] at hn
  have apart := (List.nodup_append.1 hn).2.2
  exact apart _ (List.mem_map_of_mem hmem) _ List.mem_cons_self hid

end Spriting.Css

import Spriting.Proofs.Css.Reading
import Spriting.Proofs.Lists

/-!
# Ids of a sheet

Numbering gives an id to whatever has none.  Seen as a list, the ids of the
nodes and of the items of their bodies are claimed one after another.

* `ofNodes_distinct`: no two ids of a sheet agree where the ids that its nodes
  came with do not;
* `parse_distinct`: so no two ids of a sheet that has been read agree;
* `numberNodes_bare`: numbering changes nothing but the ids.
-/

namespace Spriting.Css

/-- The ids that a list of ids, 0 for none, becomes, and the last id afterwards. -/
def claimIds (last : Int) : List Int → List Int × Int
  | [] => ([], last)
  | i :: is =>
    let claimed := claimId last i
    let rest := claimIds claimed.2 is
    (claimed.1 :: rest.1, rest.2)

theorem claimIds_append (last : Int) (is js : List Int) :
    claimIds last (is ++ js) =
      ((claimIds last is).1 ++ (claimIds (claimIds last is).2 js).1,
        (claimIds (claimIds last is).2 js).2) := by
  induction is generalizing last with
  | nil => rfl
  | cons i is ih => simp only [List.cons_append, claimIds, ih]

theorem BodyItem.id_withId (item : BodyItem) (i : Int) : (item.withId i).id = i := by
  cases item <;> rfl

theorem numberBody_ids (last : Int) (items : List BodyItem) :
    ((numberBody last items).1.map BodyItem.id, (numberBody last items).2) =
      claimIds last (items.map BodyItem.id) := by
  induction items generalizing last with
  | nil => rfl
  | cons item items ih =>
    simp only [numberBody, List.map_cons, claimIds, ← ih, BodyItem.id_withId]

theorem numberNodes_ids (last : Int) (nodes : List Node) :
    ((numberNodes last nodes).1.flatMap Node.ids, (numberNodes last nodes).2) =
      claimIds last (nodes.flatMap Node.ids) := by
  induction nodes generalizing last with
  | nil => rfl
  | cons node nodes ih =>
    cases node with
    | rule r =>
      have hbody := numberBody_ids (claimId last r.id).2 r.body
      obtain ⟨hids, hlast⟩ := Prod.mk.injEq .. ▸ hbody
      simp only [numberNodes, List.flatMap_cons, Node.ids, List.cons_append, claimIds,
        claimIds_append, ← hids, ← hlast, ← ih]
    | comment c => simp [numberNodes, Node.ids, Node.withId, Node.id, claimIds, ← ih]
    | atRule a => simp [numberNodes, Node.ids, Node.withId, Node.id, claimIds, ← ih]

theorem numberNodes_length (last : Int) (nodes : List Node) :
    (numberNodes last nodes).1.length = nodes.length := by
  induction nodes generalizing last with
  | nil => rfl
  | cons node nodes ih => cases node <;> simp [numberNodes, ih]

theorem Stylesheet.mem_rules_iff {sheet : Stylesheet} {r : Rule} :
    r ∈ sheet.rules ↔ .rule r ∈ sheet.nodes := by
  constructor
  · intro hr
    obtain ⟨n, hn, hrule⟩ := List.mem_filterMap.1 hr
    cases n with
    | rule r' =>
      cases hrule
      exact hn
    | comment c => cases hrule
    | atRule a => cases hrule
  · exact fun hr => List.mem_filterMap.2 ⟨_, hr, rfl⟩

/-- A rule as it is without its ids. -/
def Rule.bare (r : Rule) : Rule := { r with body := r.body.map (BodyItem.withId 0), id := 0 }

theorem declarations_bare (r : Rule) :
    r.bare.declarations = r.declarations.map fun d => { d with id := 0 } := by
  have item : ∀ i : BodyItem, (i.withId 0).declaration? =
      i.declaration?.map fun d => { d with id := 0 } := by
    intro i
    cases i <;> rfl
  simp [Rule.declarations, Rule.bare, List.filterMap_map, List.map_filterMap, item]

theorem numberBody_bare (last : Int) (items : List BodyItem) :
    (numberBody last items).1.map (BodyItem.withId 0) = items.map (BodyItem.withId 0) := by
  induction items generalizing last with
  | nil => rfl
  | cons item items ih =>
    have head : (item.withId (claimId last item.id).1).withId 0 = item.withId 0 := by
      cases item <;> rfl
    simp only [numberBody, List.map_cons, head, ih]

/-- A node as it is without its ids. -/
def Node.bare : Node → Node
  | rule r => rule r.bare
  | comment c => comment { c with id := 0 }
  | atRule a => atRule { a with id := 0 }

theorem mem_map_bare_iff {sheet : Stylesheet} {r : Rule} :
    .rule r ∈ sheet.nodes.map Node.bare ↔ ∃ r' ∈ sheet.rules, r'.bare = r := by
  constructor
  · intro hr
    obtain ⟨n, hn, hbare⟩ := List.mem_map.1 hr
    cases n with
    | rule r' =>
      cases hbare
      exact ⟨r', Stylesheet.mem_rules_iff.2 hn, rfl⟩
    | comment c => cases hbare
    | atRule a => cases hbare
  · rintro ⟨r', hr', rfl⟩
    exact List.mem_map_of_mem (Stylesheet.mem_rules_iff.1 hr')

/-- Numbering changes nothing but the ids. -/
theorem numberNodes_bare (last : Int) (nodes : List Node) :
    (numberNodes last nodes).1.map Node.bare = nodes.map Node.bare := by
  induction nodes generalizing last with
  | nil => rfl
  | cons node nodes ih =>
    cases node with
    | rule r => simp only [numberNodes, List.map_cons, Node.bare, Rule.bare, numberBody_bare, ih]
    | comment c =>
      simp only [numberNodes, List.map_cons, ih]
      rfl
    | atRule a =>
      simp only [numberNodes, List.map_cons, ih]
      rfl

theorem BodyItem.withId_zero {item : BodyItem} (h : item.id = 0) : item.withId 0 = item := by
  cases item with
  | declaration d =>
    obtain ⟨property, value, id⟩ := d
    obtain rfl : id = 0 := h
    rfl
  | comment c =>
    obtain ⟨text, id⟩ := c
    obtain rfl : id = 0 := h
    rfl

/-- A node without ids is bare. -/
theorem bare_of_unnumbered {n : Node} (h : n.Unnumbered) : n.bare = n := by
  cases n with
  | rule r =>
    obtain ⟨selectors, body, i⟩ := r
    obtain ⟨hid, hbody⟩ := List.forall_mem_cons.1 h
    obtain rfl : i = 0 := hid
    have items : body.map (BodyItem.withId 0) = body.map id :=
      List.map_congr_left fun i hi => BodyItem.withId_zero (List.forall_mem_map.1 hbody i hi)
    simp only [Node.bare, Rule.bare, items, List.map_id]
  | comment c =>
    obtain ⟨text, id⟩ := c
    obtain rfl : id = 0 := h id (List.mem_singleton_self id)
    rfl
  | atRule a =>
    obtain ⟨name, start, block, id⟩ := a
    obtain rfl : id = 0 := h id (List.mem_singleton_self id)
    rfl

theorem map_bare_of_unnumbered {nodes : List Node} (h : ∀ n ∈ nodes, n.Unnumbered) :
    nodes.map Node.bare = nodes :=
  (List.map_congr_left (g := id) fun n hn => bare_of_unnumbered (h n hn)).trans (List.map_id nodes)

/-- A sheet of nodes without ids has these nodes, ids aside. -/
theorem ofNodes_bare {nodes : List Node} (h : ∀ n ∈ nodes, n.Unnumbered) :
    (Stylesheet.ofNodes nodes).nodes.map Node.bare = nodes :=
  (numberNodes_bare _ nodes).trans (map_bare_of_unnumbered h)

/-- Rules that are numbered stay rules and keep all but their ids. -/
theorem numberNodes_rules (last : Int) (rules : List Rule) :
    ∃ numbered : List Rule, (numberNodes last (rules.map .rule)).1 = numbered.map .rule ∧
      numbered.map Rule.bare = rules.map Rule.bare := by
  induction rules generalizing last with
  | nil => exact ⟨[], rfl, rfl⟩
  | cons r rules ih =>
    let body := numberBody (claimId last r.id).2 r.body
    obtain ⟨numbered, hnodes, hbare⟩ := ih body.2
    let head : Rule := { r with body := body.1, id := (claimId last r.id).1 }
    have hhead : head.bare = r.bare := by
      simp only [Rule.bare, head, body, numberBody_bare]
    refine ⟨head :: numbered, ?_, ?_⟩
    · rw [List.map_cons, List.map_cons, ← hnodes]
      rfl
    · rw [List.map_cons, List.map_cons, hhead, hbare]

/-- An id that has been claimed was given before or is above the last one. -/
theorem mem_claimIds {last i : Int} {is : List Int} (h : i ∈ (claimIds last is).1) :
    i ∈ is ∧ i ≠ 0 ∨ last < i := by
  induction is generalizing last with
  | nil => simp [claimIds] at h
  | cons j is ih =>
    rcases List.mem_cons.1 h with rfl | h
    · by_cases hj : j = 0
      · right
        simp only [claimId, if_pos hj]
        omega
      · left
        simp [claimId, hj]
    · rcases ih h with ⟨hmem, hne⟩ | hlt
      · exact .inl ⟨List.mem_cons_of_mem _ hmem, hne⟩
      · right
        by_cases hj : j = 0
        · simp only [claimId, if_pos hj] at hlt
          omega
        · simp only [claimId, if_neg hj] at hlt
          omega

/-- Ids that are claimed above all that are in use agree with no other. -/
theorem claimIds_nodup {last : Int} {is : List Int} (hlast : ∀ i ∈ is, i ≤ last)
    (hnodup : (is.filter (· ≠ 0)).Nodup) : (claimIds last is).1.Nodup := by
  induction is generalizing last with
  | nil => exact List.nodup_nil
  | cons i is ih =>
    have hbelow : ∀ j ∈ is, j ≤ last := fun j hj => hlast j (List.mem_cons_of_mem _ hj)
    by_cases h0 : i = 0
    · subst h0
      have hrest : (claimIds (last + 1) is).1.Nodup :=
        ih (fun j hj => by have := hbelow j hj; omega) (by simpa using hnodup)
      refine List.nodup_cons.2 ⟨?_, hrest⟩
      intro hmem
      rcases mem_claimIds hmem with ⟨h, -⟩ | h
      · have : last + 1 ≤ last := hbelow _ h
        omega
      · exact Int.lt_irrefl _ h
    · rw [List.filter_cons_of_pos (by simpa using h0), List.nodup_cons] at hnodup
      have claimed : claimId last i = (i, last) := if_neg h0
      simp only [claimIds, claimed]
      refine List.nodup_cons.2 ⟨?_, ih hbelow hnodup.2⟩
      intro hmem
      rcases mem_claimIds hmem with ⟨h, hne⟩ | h
      · exact hnodup.1 (List.mem_filter.2 ⟨h, by simpa using hne⟩)
      · have : i ≤ last := hlast i List.mem_cons_self
        omega

theorem le_highestId {last i : Int} {nodes : List Node} (h : i ∈ nodes.flatMap Node.ids) :
    i ≤ highestId last nodes := (foldl_max_ge _ last).2 i h

theorem numberNodes_append (last : Int) (nodes nodes' : List Node) :
    numberNodes last (nodes ++ nodes') =
      ((numberNodes last nodes).1 ++ (numberNodes (numberNodes last nodes).2 nodes').1,
        (numberNodes (numberNodes last nodes).2 nodes').2) := by
  induction nodes generalizing last with
  | nil => rfl
  | cons node nodes ih => cases node <;> simp only [List.cons_append, numberNodes, ih]

theorem highestId_of_unnumbered {nodes : List Node} (h : ∀ n ∈ nodes, n.Unnumbered) :
    highestId 0 nodes = 0 := by
  rcases List.mem_cons.1 (foldl_max_mem (nodes.flatMap Node.ids) 0) with h0 | hmem
  · exact h0
  · obtain ⟨n, hn, hi⟩ := List.mem_flatMap.1 hmem
    exact h n hn _ hi

/-- No two nodes or body items of a sheet have the same id. -/
def Stylesheet.Distinct (sheet : Stylesheet) : Prop := (sheet.nodes.flatMap Node.ids).Nodup

/-- Ids that differ where they are given differ in the sheet. -/
theorem ofNodes_distinct {nodes : List Node}
    (h : ((nodes.flatMap Node.ids).filter (· ≠ 0)).Nodup) :
    (Stylesheet.ofNodes nodes).Distinct := by
  have ids := congrArg Prod.fst (numberNodes_ids (highestId 0 nodes) nodes)
  change ((numberNodes (highestId 0 nodes) nodes).1.flatMap Node.ids).Nodup
  rw [show (numberNodes _ nodes).1.flatMap Node.ids = _ from ids]
  exact claimIds_nodup (fun i hi => le_highestId hi) h

theorem given_of_parseNodes {cs : List Char} {nodes : List Node} (h : parseNodes cs = .ok nodes) :
    (nodes.flatMap Node.ids).filter (· ≠ 0) = [] := by
  rw [List.filter_eq_nil_iff]
  intro i hi
  obtain ⟨n, hn, hin⟩ := List.mem_flatMap.1 hi
  simpa using unnumbered_of_parseNodes h n hn i hin

theorem parse_distinct {source : String} {sheet : Stylesheet} (h : parse source = .ok sheet) :
    sheet.Distinct := by
  obtain ⟨nodes, hnodes, rfl⟩ := parse_eq_ok_iff.1 h
  apply ofNodes_distinct
  rw [given_of_parseNodes hnodes]
  exact List.nodup_nil

end Spriting.Css

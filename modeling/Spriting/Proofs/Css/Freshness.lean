import Mathlib.Data.List.Nodup
import Spriting.Proofs.Css.Editing

/-!
# Fresh ids

A sheet remembers the highest id in use.  So an id that it gives out is none that it has
already, and no two ids ever come to agree.

* `Numbered.extend`: a rule that gains items with fresh ids;
* `Numbered.prepend`: nodes put in front;
* `Numbered.eq_of_mem_ids`: an id stands at one place only.
-/

namespace Spriting.Css

/-! ## Claiming ids -/

theorem le_claimIds_last (last : Int) (is : List Int) : last ≤ (claimIds last is).2 := by
  induction is generalizing last with
  | nil => exact Int.le_refl last
  | cons i is ih =>
    have := ih (claimId last i).2
    simp only [claimIds]
    unfold claimId at this ⊢
    split at this
    · rename_i h0
      rw [if_pos h0]
      omega
    · rename_i h0
      rw [if_neg h0]
      exact this

/-- Ids that are claimed above all that are in use stay within the last one. -/
theorem claimIds_le {last i : Int} {is : List Int} (hlast : ∀ i ∈ is, i ≤ last)
    (h : i ∈ (claimIds last is).1) : i ≤ (claimIds last is).2 := by
  induction is generalizing last with
  | nil => cases h
  | cons j is ih =>
    obtain ⟨hj, hrest⟩ := List.forall_mem_cons.1 hlast
    have hbelow : ∀ i ∈ is, i ≤ (claimId last j).2 := by
      intro i hi
      have := hrest i hi
      unfold claimId
      split <;> omega
    rcases List.mem_cons.1 h with rfl | h
    · have hclaimed : (claimId last j).1 ≤ (claimId last j).2 := by
        unfold claimId
        split
        · exact Int.le_refl _
        · exact hj
      exact Int.le_trans hclaimed (le_claimIds_last _ is)
    · exact ih hbelow h

namespace Stylesheet

/-- No two ids agree, and none is above the last one. -/
structure Numbered (sheet : Stylesheet) : Prop where
  distinct : sheet.Distinct
  bounded : ∀ i ∈ sheet.nodes.flatMap Node.ids, i ≤ sheet.lastId

variable {sheet sheet' : Stylesheet}

theorem numbered_ofNodes {nodes : List Node} (h : ((nodes.flatMap Node.ids).filter (· ≠ 0)).Nodup) :
    (ofNodes nodes).Numbered := by
  refine ⟨ofNodes_distinct h, ?_⟩
  have ids := numberNodes_ids (highestId 0 nodes) nodes
  have hnodes : (ofNodes nodes).nodes.flatMap Node.ids = _ := congrArg Prod.fst ids
  have hlast : (ofNodes nodes).lastId =
      (claimIds (highestId 0 nodes) (nodes.flatMap Node.ids)).2 := congrArg Prod.snd ids
  intro i hi
  rw [hnodes] at hi
  rw [hlast]
  exact claimIds_le (fun i hi => le_highestId hi) hi

theorem prepend_ids (sheet : Stylesheet) (nodes : List Node) :
    (sheet.prepend nodes).nodes.flatMap Node.ids =
      (claimIds (highestId sheet.lastId nodes) (nodes.flatMap Node.ids)).1 ++
        sheet.nodes.flatMap Node.ids := by
  rw [← congrArg Prod.fst (numberNodes_ids _ nodes), ← List.flatMap_append]
  rfl

theorem prepend_lastId (sheet : Stylesheet) (nodes : List Node) :
    (sheet.prepend nodes).lastId =
      (claimIds (highestId sheet.lastId nodes) (nodes.flatMap Node.ids)).2 :=
  congrArg Prod.snd (numberNodes_ids _ nodes)

/-- Nodes that are put in front get ids that none has. -/
theorem Numbered.prepend {nodes : List Node} (h : sheet.Numbered)
    (hgiven : ((nodes.flatMap Node.ids).filter (· ≠ 0)).Nodup)
    (hnew : ∀ i ∈ nodes.flatMap Node.ids, i ≠ 0 → i ∉ sheet.nodes.flatMap Node.ids) :
    (sheet.prepend nodes).Numbered := by
  have hbelow : ∀ i ∈ nodes.flatMap Node.ids, i ≤ highestId sheet.lastId nodes :=
    fun i hi => le_highestId hi
  have hhighest : sheet.lastId ≤ highestId sheet.lastId nodes := (foldl_max_ge _ _).1
  constructor
  · rw [Distinct, prepend_ids, List.nodup_append]
    refine ⟨claimIds_nodup hbelow hgiven, h.distinct, ?_⟩
    rintro i hi j hj rfl
    rcases mem_claimIds hi with ⟨hmem, hne⟩ | hlt
    · exact hnew i hmem hne hj
    · have := h.bounded i hj
      omega
  · rw [prepend_ids]
    intro i hi
    rw [prepend_lastId]
    rcases List.mem_append.1 hi with hi | hi
    · exact claimIds_le hbelow hi
    · exact Int.le_trans (Int.le_trans (h.bounded i hi) hhighest) (le_claimIds_last _ _)

theorem Numbered.newId_notMem (h : sheet.Numbered) :
    sheet.newId.1 ∉ sheet.nodes.flatMap Node.ids := by
  intro hmem
  have : sheet.lastId + 1 ≤ sheet.lastId := h.bounded _ hmem
  omega

/-- A rule may gain items with fresh ids. -/
theorem Numbered.extend {before after : List Node} {r r' : Rule} (h : sheet.Numbered)
    (hnodes : sheet.nodes = before ++ .rule r :: after) (hid : r'.id = r.id)
    (hbody : r'.body.map BodyItem.id = r.body.map BodyItem.id ++ [sheet.newId.1])
    (hnodes' : sheet'.nodes = before ++ .rule r' :: after)
    (hlast : sheet'.lastId = sheet.newId.2.lastId) : sheet'.Numbered := by
  have hids : (sheet'.nodes.flatMap Node.ids).Perm
      (sheet.newId.1 :: sheet.nodes.flatMap Node.ids) := by
    have hgained : sheet'.nodes.flatMap Node.ids =
        (before.flatMap Node.ids ++ (Node.rule r).ids) ++
          sheet.newId.1 :: after.flatMap Node.ids := by
      simp [hnodes', Node.ids, hid, hbody]
    have hold : sheet.nodes.flatMap Node.ids =
        (before.flatMap Node.ids ++ (Node.rule r).ids) ++ after.flatMap Node.ids := by
      simp [hnodes]
    rw [hgained, hold]
    exact List.perm_middle
  constructor
  · exact hids.nodup_iff.2 (List.nodup_cons.2 ⟨h.newId_notMem, h.distinct⟩)
  · intro i hi
    rw [hlast]
    change i ≤ sheet.lastId + 1
    rcases List.mem_cons.1 (hids.mem_iff.1 hi) with rfl | hi
    · exact Int.le_refl _
    · have := h.bounded i hi
      omega

/-- An id stands at one place only. -/
theorem Distinct.eq_of_mem_ids {j k : Nat} {m n : Node} {i : Int} (h : sheet.Distinct)
    (hj : sheet.nodes[j]? = some m) (hk : sheet.nodes[k]? = some n) (hm : i ∈ m.ids)
    (hn : i ∈ n.ids) : j = k := by
  have apart := (List.nodup_flatMap.1 h).2
  rw [List.pairwise_iff_getElem] at apart
  obtain ⟨hjlt, rfl⟩ := List.getElem?_eq_some_iff.1 hj
  obtain ⟨hklt, rfl⟩ := List.getElem?_eq_some_iff.1 hk
  rcases Nat.lt_trichotomy j k with hlt | heq | hlt
  · exact (apart j k hjlt hklt hlt hm hn).elim
  · exact heq
  · exact (apart k j hklt hjlt hlt hn hm).elim

end Stylesheet

theorem parse_numbered {source : String} {sheet : Stylesheet} (h : parse source = .ok sheet) :
    sheet.Numbered := by
  obtain ⟨nodes, hnodes, rfl⟩ := parse_eq_ok_iff.1 h
  apply Stylesheet.numbered_ofNodes
  rw [given_of_parseNodes hnodes]
  exact List.nodup_nil

end Spriting.Css

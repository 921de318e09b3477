import Spriting.Proofs.Background.Holding

/-!
# References outlast every change

A sheet changes in three ways: it gives out an id, nodes are put in front of it, and members
of a group are placed, be they members of this sheet or not, and be they placed to the end or
not.  None of these takes an id away or moves it to another place.

* `Lawful`: ids that differ, none of them 0, all within the last one;
* `Grows`: what is still where it was, behind nodes with the ids that they came with;
* `Edit.lawful`, `Edit.grows`: one change, and `Edited.lawful`, `Edited.grows`: all of them;
* `Edited.keeps`: the ids of the last state, and the references of an earlier one.
-/

namespace Spriting.Css

/-! ## What stays of a node -/

/-- What tells items of a body apart: whether an item is a declaration, and its id. -/
def BodyItem.tag (item : BodyItem) : Bool × Int := (item.declaration?.isSome, item.id)

/-- `r'` has the items of `r` under the same ids, and maybe more behind them. -/
structure Rule.Stays (r r' : Rule) : Prop where
  id : r'.id = r.id
  selectors : r'.selectors = r.selectors
  body : r.body.map BodyItem.tag <+: r'.body.map BodyItem.tag

/-- A node stays as it is, or it is a rule and stays the rule that it was. -/
inductive Node.Stays : Node → Node → Prop where
  | same (n : Node) : Stays n n
  | rule {r r' : Rule} : r.Stays r' → Stays (.rule r) (.rule r')

/-- Whatever id the node `n` came with, `n'` has it. -/
def Node.Given (n n' : Node) : Prop :=
  ∃ is, is <+: n'.ids ∧ List.Forall₂ (fun i j => i ≠ 0 → j = i) n.ids is

variable {n n' n'' : Node} {r r' r'' : Rule}

theorem Rule.Stays.trans (h : r.Stays r') (h' : r'.Stays r'') : r.Stays r'' :=
  ⟨h'.id.trans h.id, h'.selectors.trans h.selectors, h.body.trans h'.body⟩

theorem Node.Stays.trans (h : n.Stays n') (h' : n'.Stays n'') : n.Stays n'' := by
  cases h with
  | same => exact h'
  | rule hr =>
    cases h' with
    | same => exact .rule hr
    | rule hr' => exact .rule (hr.trans hr')

theorem Node.Stays.of_rule (h : (Node.rule r).Stays n') : ∃ r', n' = .rule r' ∧ r.Stays r' := by
  cases h with
  | same => exact ⟨r, rfl, rfl, rfl, List.prefix_rfl⟩
  | @rule _ r' hr => exact ⟨r', rfl, hr⟩

/-- A declaration of a rule that stays has one in its place with the same id. -/
theorem Rule.Stays.declaration {d : Declaration} {j : Nat} (h : r.Stays r')
    (hj : r.body[j]? = some (.declaration d)) :
    ∃ d', r'.body[j]? = some (.declaration d') ∧ d'.id = d.id := by
  obtain ⟨more, hmore⟩ := h.body
  have hbound : j < (r.body.map BodyItem.tag).length := by
    rw [List.length_map]
    exact (List.getElem?_eq_some_iff.1 hj).1
  have htag : (r'.body.map BodyItem.tag)[j]? = some (true, d.id) := by
    rw [← hmore, List.getElem?_append_left hbound, List.getElem?_map, hj]
    rfl
  rw [List.getElem?_map] at htag
  obtain ⟨item, hitem, heq⟩ := Option.map_eq_some_iff.1 htag
  cases item with
  | declaration d' => exact ⟨d', hitem, congrArg Prod.snd heq⟩
  | comment c => cases heq

theorem map_id_eq (items : List BodyItem) :
    items.map BodyItem.id = (items.map BodyItem.tag).map Prod.snd := by
  rw [List.map_map]
  rfl

theorem Node.Stays.ids (h : n.Stays n') : n.ids <+: n'.ids := by
  cases h with
  | same => exact List.prefix_rfl
  | @rule r r' hr =>
    change r.id :: r.body.map BodyItem.id <+: r'.id :: r'.body.map BodyItem.id
    rw [hr.id, List.cons_prefix_cons, map_id_eq, map_id_eq]
    exact ⟨rfl, hr.body.map _⟩

theorem Node.Given.stays (h : n.Given n') (h' : n'.Stays n'') : n.Given n'' := by
  obtain ⟨is, hprefix, his⟩ := h
  exact ⟨is, hprefix.trans h'.ids, his⟩

theorem stays_refl (nodes : List Node) : List.Forall₂ Node.Stays nodes nodes :=
  List.forall₂_same.2 fun n _ => .same n

/-! ## Ids that nodes come with -/

theorem claimIds_given (last : Int) (is : List Int) :
    List.Forall₂ (fun i j => i ≠ 0 → j = i) is (claimIds last is).1 := by
  induction is generalizing last with
  | nil => exact .nil
  | cons i is ih => exact .cons (fun hne => by simp [claimId, hne]) (ih _)

theorem given_of_ids (last : Int) (h : n'.ids = (claimIds last n.ids).1) : n.Given n' :=
  ⟨_, h ▸ List.prefix_rfl, claimIds_given last n.ids⟩

theorem numberNodes_given (last : Int) (nodes : List Node) :
    List.Forall₂ Node.Given nodes (numberNodes last nodes).1 := by
  induction nodes generalizing last with
  | nil => exact .nil
  | cons node nodes ih =>
    cases node with
    | rule r =>
      refine .cons (given_of_ids last ?_) (ih _)
      exact congrArg _ (congrArg Prod.fst (numberBody_ids _ r.body))
    | comment c => exact .cons (given_of_ids last rfl) (ih _)
    | atRule a => exact .cons (given_of_ids last rfl) (ih _)

/-! ## A rule with one more declaration -/

/-- `r'` is `r` with one more declaration, whose id is `i`. -/
structure Rule.Gains (i : Int) (r r' : Rule) : Prop where
  id : r'.id = r.id
  selectors : r'.selectors = r.selectors
  body : r'.body.map BodyItem.tag = r.body.map BodyItem.tag ++ [(true, i)]

theorem Rule.Gains.body_ids {i : Int} (h : Rule.Gains i r r') :
    r'.body.map BodyItem.id = r.body.map BodyItem.id ++ [i] := by
  rw [map_id_eq, h.body, List.map_append, ← map_id_eq]
  rfl

theorem Rule.Gains.stays {i : Int} (h : Rule.Gains i r r') : r.Stays r' :=
  ⟨h.id, h.selectors, h.body ▸ List.prefix_append _ _⟩

namespace Stylesheet

/-- Ids that differ, none of them 0, and none above the last one. -/
structure Lawful (sheet : Stylesheet) : Prop extends sheet.Numbered where
  named : ∀ i ∈ sheet.nodes.flatMap Node.ids, i ≠ 0
  counted : 0 ≤ sheet.lastId

/-- What is in `sheet` stays in `sheet'`, behind nodes with the ids that `given` came with. -/
def Grows (given : List Node) (sheet sheet' : Stylesheet) : Prop :=
  ∃ front rest, sheet'.nodes = front ++ rest ∧ List.Forall₂ Node.Given given front ∧
    List.Forall₂ Node.Stays sheet.nodes rest

variable {sheet sheet' sheet'' : Stylesheet} {given given' nodes : List Node}

theorem Grows.refl (sheet : Stylesheet) : Grows [] sheet sheet :=
  ⟨[], sheet.nodes, rfl, .nil, stays_refl sheet.nodes⟩

theorem Grows.trans (h : Grows given sheet sheet') (h' : Grows given' sheet' sheet'') :
    Grows (given' ++ given) sheet sheet'' := by
  obtain ⟨front, rest, hnodes, hfront, hrest⟩ := h
  obtain ⟨front', rest', hnodes', hfront', hrest'⟩ := h'
  rw [hnodes] at hrest'
  have hmiddle := List.forall₂_take front.length hrest'
  have hold := List.forall₂_drop front.length hrest'
  rw [List.take_left] at hmiddle
  rw [List.drop_left] at hold
  refine ⟨front' ++ rest'.take front.length, rest'.drop front.length, ?_, ?_, ?_⟩
  · rw [hnodes', List.append_assoc, List.take_append_drop]
  · have hgiven : List.Forall₂ Node.Given given (rest'.take front.length) :=
      forall₂_trans (S := Node.Stays) (fun _ _ _ => .stays) hfront hmiddle
    exact List.rel_append hfront' hgiven
  · exact forall₂_trans (S := Node.Stays) (fun _ _ _ => .trans) hrest hold

/-! ## What each change does -/

theorem ofNodes_eq_prepend (nodes : List Node) : ofNodes nodes = prepend ⟨[], 0⟩ nodes := by
  simp [ofNodes, prepend]

theorem lawful_empty : Lawful ⟨[], 0⟩ where
  distinct := List.nodup_nil
  bounded := by simp
  named := by simp
  counted := Int.le_refl 0

theorem Lawful.newId (h : sheet.Lawful) : sheet.newId.2.Lawful where
  distinct := h.distinct
  bounded i hi := by
    have := h.bounded i hi
    change i ≤ sheet.lastId + 1
    omega
  named := h.named
  counted := by
    have := h.counted
    change 0 ≤ sheet.lastId + 1
    omega

theorem Lawful.prepend (h : sheet.Lawful)
    (hgiven : ((nodes.flatMap Node.ids).filter (· ≠ 0)).Nodup)
    (hnew : ∀ i ∈ nodes.flatMap Node.ids, i ≠ 0 → i ∉ sheet.nodes.flatMap Node.ids) :
    (sheet.prepend nodes).Lawful := by
  have hhighest : 0 ≤ highestId sheet.lastId nodes :=
    Int.le_trans h.counted (foldl_max_ge _ _).1
  refine ⟨h.toNumbered.prepend hgiven hnew, ?_, ?_⟩
  · intro i hi
    rw [prepend_ids] at hi
    rcases List.mem_append.1 hi with hclaimed | hold
    · rcases mem_claimIds hclaimed with ⟨-, hne⟩ | hlt
      · exact hne
      · omega
    · exact h.named i hold
  · rw [prepend_lastId]
    exact Int.le_trans hhighest (le_claimIds_last _ _)

theorem grows_prepend (sheet : Stylesheet) (nodes : List Node) :
    Grows nodes sheet (sheet.prepend nodes) :=
  ⟨_, sheet.nodes, rfl, numberNodes_given _ nodes, stays_refl sheet.nodes⟩

theorem grows_ofNodes (nodes : List Node) : Grows nodes ⟨[], 0⟩ (ofNodes nodes) := by
  rw [ofNodes_eq_prepend]
  exact grows_prepend _ nodes

/-- Where there was nothing all nodes are such as were given. -/
theorem given_of_grows (h : Grows given ⟨[], 0⟩ sheet) : List.Forall₂ Node.Given given sheet.nodes := by
  obtain ⟨front, rest, hnodes, hfront, hrest⟩ := h
  cases hrest
  rw [hnodes, List.append_nil]
  exact hfront

/-- A rule is replaced in its place, also when an id has been taken in between. -/
theorem exists_split_of_newId {id : Int} {r : Rule} (hfind : sheet.findRule id = some r) :
    ∃ before after, sheet.nodes = before ++ .rule r :: after ∧
      ∀ r', (sheet.newId.2.setRule id r').nodes = before ++ .rule r' :: after := by
  have hfind' : sheet.newId.2.findRule id = some r := hfind
  exact exists_split_of_findRule hfind'

/-- In the place of a rule stands one with one more declaration, of a fresh id. -/
theorem Lawful.setRule {id : Int} {r r' : Rule} (h : sheet.Lawful) (hfind : sheet.findRule id = some r)
    (hgains : Rule.Gains sheet.newId.1 r r') : (sheet.newId.2.setRule id r').Lawful := by
  obtain ⟨before, after, hnodes, hset⟩ := exists_split_of_newId hfind
  have numbered := h.toNumbered.extend hnodes hgains.id hgains.body_ids (hset r') rfl
  refine ⟨numbered, ?_, h.newId.counted⟩
  intro i hi
  have hmem : i ∈ sheet.nodes.flatMap Node.ids ∨ i = sheet.newId.1 := by
    rw [hset r'] at hi
    simp only [hnodes, List.flatMap_append, List.flatMap_cons, List.mem_append, Node.ids,
      hgains.id, hgains.body_ids, List.mem_cons] at hi ⊢
    tauto
  rcases hmem with hold | rfl
  · exact h.named i hold
  · have := h.counted
    change sheet.lastId + 1 ≠ 0
    omega

theorem grows_setRule {id : Int} {r r' : Rule} (hfind : sheet.findRule id = some r)
    (hstays : r.Stays r') : Grows [] sheet (sheet.newId.2.setRule id r') := by
  obtain ⟨before, after, hnodes, hset⟩ := exists_split_of_newId hfind
  refine ⟨[], _, hset r', .nil, ?_⟩
  rw [hnodes]
  exact List.rel_append (stays_refl before) (.cons (.rule hstays) (stays_refl after))

end Stylesheet

end Spriting.Css

namespace Spriting.Background

open Css Layout

variable {sheet sheet' earlier later : Stylesheet} {refs : List Reference} {nodes front : List Node}

/-! ## Placing, to the end or not -/

theorem gains_withLast (r : Rule) (d : Declaration) : Rule.Gains d.id r (withLast r d) where
  id := rfl
  selectors := rfl
  body := by simp [withLast, BodyItem.tag, BodyItem.declaration?, BodyItem.id]

theorem gains_replaceDeclaration {r r' positioned : Rule} {i j : Int} {new : Declaration}
    (h : Rule.Gains i r r') (hnew : new.id = j)
    (hreplace : r'.replaceDeclaration j new = some positioned) : Rule.Gains i r positioned := by
  obtain ⟨before, old, after, hbody, hold, rfl⟩ := exists_split_of_replaceDeclaration hreplace
  refine ⟨h.id, h.selectors, ?_⟩
  rw [← h.body, hbody]
  simp [BodyItem.tag, BodyItem.declaration?, BodyItem.id, hnew, hold]

/-- Members are placed by steps that give a rule one more declaration, of a fresh id.  The last
step may be one that stops halfway. -/
theorem placeMembers_invariant {P : Stylesheet → Prop} (sprite : SpriteMap)
    (resolve : String → String)
    (hstep : ∀ s id r r', P s → s.findRule id = some r → Rule.Gains s.newId.1 r r' →
      P (s.newId.2.setRule id r')) (refs : List Reference) (hsheet : P sheet) :
    P (placeMembers sprite resolve sheet refs).sheet := by
  induction refs generalizing sheet with
  | nil => exact hsheet
  | cons ref refs ih =>
    unfold placeMembers
    split
    · exact ih hsheet
    · rename_i box _
      cases hfind : sheet.findRule ref.ruleId with
      | none => exact hsheet
      | some r =>
        let size := sizeDeclaration sprite sheet.newId.1
        have sized : Rule.Gains sheet.newId.1 r (withLast r size) := gains_withLast r size
        cases hreplace : ({ r with body := r.body ++ [.declaration size] } : Rule).replaceDeclaration
            ref.declarationId (positionDeclaration box ref.declarationId) with
        | none =>
          simp only [size] at hreplace
          simp only [hreplace]
          exact hstep sheet ref.ruleId r _ hsheet hfind sized
        | some positioned =>
          have gains : Rule.Gains sheet.newId.1 r positioned :=
            gains_replaceDeclaration (j := ref.declarationId) sized rfl hreplace
          simp only [size] at hreplace
          simp only [hreplace]
          exact ih (hstep sheet ref.ruleId r positioned hsheet hfind gains)

/-! ## Changes of a sheet -/

/-- What can be done to a sheet. -/
inductive Edit where
  | newId
  | prepend (nodes : List Node)
  | place (members : List Reference) (sprite : SpriteMap) (url : String)
    (resolve : String → String)

namespace Edit

/-- The sheet afterwards, also where not all members could be placed. -/
def apply (sheet : Stylesheet) : Edit → Stylesheet
  | newId => sheet.newId.2
  | prepend nodes => sheet.prepend nodes
  | place members sprite url resolve => (placeGroup sheet members sprite url resolve).sheet

/-- The nodes that are put in front. -/
def given : Edit → List Node
  | prepend nodes => nodes
  | _ => []

/-- The ids of nodes that are put in front differ, from each other and from those in use. -/
def Fresh (sheet : Stylesheet) : Edit → Prop
  | prepend nodes => ((nodes.flatMap Node.ids).filter (· ≠ 0)).Nodup ∧
      ∀ i ∈ nodes.flatMap Node.ids, i ≠ 0 → i ∉ sheet.nodes.flatMap Node.ids
  | _ => True

theorem lawful {e : Edit} (h : sheet.Lawful) (hfresh : e.Fresh sheet) :
    (e.apply sheet).Lawful := by
  cases e with
  | newId => exact h.newId
  | prepend nodes => exact h.prepend hfresh.1 hfresh.2
  | place members sprite url resolve =>
    exact placeMembers_invariant sprite resolve (fun _ _ _ _ hs => hs.setRule) members h

theorem grows (sheet : Stylesheet) (e : Edit) : Stylesheet.Grows e.given sheet (e.apply sheet) := by
  cases e with
  | newId => exact .refl sheet
  | prepend nodes => exact Stylesheet.grows_prepend sheet nodes
  | place members sprite url resolve =>
    exact placeMembers_invariant (P := Stylesheet.Grows [] sheet) sprite resolve
      (fun _ _ _ _ hs hfind hgains => hs.trans (Stylesheet.grows_setRule hfind hgains.stays))
      members (.refl sheet)

end Edit

/-- `sheet'` is what some changes make of `sheet`, and `front` are the nodes that they put in
front. -/
inductive Edited (sheet : Stylesheet) : List Node → Stylesheet → Prop where
  | none : Edited sheet [] sheet
  | step {front : List Node} {sheet' : Stylesheet} (e : Edit) :
    Edited sheet front sheet' → e.Fresh sheet' → Edited sheet (e.given ++ front) (e.apply sheet')

theorem Edited.lawful (h : Edited sheet front sheet') (hsheet : sheet.Lawful) : sheet'.Lawful := by
  induction h with
  | none => exact hsheet
  | step e _ hfresh ih => exact e.lawful ih hfresh

theorem Edited.grows (h : Edited sheet front sheet') : Stylesheet.Grows front sheet sheet' := by
  induction h with
  | none => exact .refl sheet
  | step e _ _ ih => exact ih.trans (e.grows _)

/-! ## Where references lead -/

/-- The rule that is found under the id of `ref` is the node `k` of the sheet, with the
selectors of `ref`, and its item `j` is a declaration with the id that `ref` names. -/
def LeadsTo (sheet : Stylesheet) (ref : Reference) (k j : Nat) : Prop :=
  ∃ r d, sheet.nodes[k]? = some (.rule r) ∧ sheet.findRule ref.ruleId = some r ∧
    r.selectors = ref.selectors ∧ r.body[j]? = some (.declaration d) ∧ d.id = ref.declarationId

/-- A reference leads to the declaration that it was found in. -/
theorem leadsTo_of_findImage {ref : Reference} {r : Rule} {k : Nat} (hids : sheet.ruleIds.Nodup)
    (hk : sheet.nodes[k]? = some (.rule r)) (href : findImage r = some ref) :
    ∃ j, LeadsTo sheet ref k j := by
  obtain ⟨hrule, hselectors, d, hdecides, hd⟩ := findImage_spec href
  obtain ⟨item, hitem, hsome⟩ := List.mem_filterMap.1 hdecides.mem
  obtain rfl : item = .declaration d := by
    cases item with
    | declaration d' => exact congrArg _ (Option.some.inj hsome)
    | comment c => cases hsome
  obtain ⟨j, hj⟩ := List.mem_iff_getElem?.1 hitem
  refine ⟨j, r, d, hk, ?_, hselectors.symm, hj, hd.symm⟩
  rw [hrule]
  exact Stylesheet.findRule_of_mem hids (Stylesheet.mem_rules_of_getElem? hk)

/-- What is put in front moves what references lead to, and nothing else happens to it. -/
theorem LeadsTo.grows {ref : Reference} {k j : Nat} (h : LeadsTo sheet ref k j)
    (hgrows : Stylesheet.Grows front sheet sheet') (hids : sheet'.ruleIds.Nodup) :
    LeadsTo sheet' ref (front.length + k) j := by
  obtain ⟨r, d, hk, hfind, hselectors, hj, hd⟩ := h
  obtain ⟨front', rest, hnodes, hfront, hrest⟩ := hgrows
  obtain ⟨hlt, hget⟩ := List.getElem?_eq_some_iff.1 hk
  have hlt' : k < rest.length := hrest.length_eq ▸ hlt
  have hstays : (Node.rule r).Stays rest[k] := hget ▸ hrest.get hlt hlt'
  obtain ⟨r', hr', hsame⟩ := hstays.of_rule
  obtain ⟨d', hj', hd'⟩ := hsame.declaration hj
  have hk' : sheet'.nodes[front.length + k]? = some (.rule r') := by
    rw [hnodes, hfront.length_eq, List.getElem?_append_right (Nat.le_add_right _ _),
      Nat.add_sub_cancel_left, List.getElem?_eq_getElem hlt', hr']
  refine ⟨r', d', hk', ?_, hsame.selectors.trans hselectors, hj', hd'.trans hd⟩
  have hid : r.id = ref.ruleId := by simpa using List.find?_some hfind
  rw [← hid, ← hsame.id]
  exact Stylesheet.findRule_of_mem hids (Stylesheet.mem_rules_of_getElem? hk')

/-- **Ids stay unique and references stay valid.** Let the ids that the nodes of a sheet come with
differ, and let it be changed any number of times, with nodes put in front whose ids differ from
those in use, and with groups placed whose references may lead nowhere.  Then in every state the
ids differ, none of them is 0 or above the last one, every node has the ids that it came with,
and the next id is new; and a reference that was found in any earlier state still leads to the
rule and to the place in its body where it was found. -/
theorem Edited.keeps {front' : List Node}
    (hnodes : ((nodes.flatMap Node.ids).filter (· ≠ 0)).Nodup)
    (h : Edited (.ofNodes nodes) front earlier) (h' : Edited earlier front' later) :
    (later.nodes.flatMap Node.ids).Nodup ∧
    (∀ i ∈ later.nodes.flatMap Node.ids, i ≠ 0 ∧ i ≤ later.lastId) ∧
    later.newId.1 ∉ later.nodes.flatMap Node.ids ∧
    List.Forall₂ Node.Given (front' ++ front ++ nodes) later.nodes ∧
    ∀ g ∈ groups earlier, ∀ ref ∈ g.members, ∃ k j r,
      earlier.nodes[k]? = some (.rule r) ∧ findImage r = some ref ∧
      LeadsTo earlier ref k j ∧ LeadsTo later ref (front'.length + k) j := by
  have start : Stylesheet.Lawful (.ofNodes nodes) := by
    rw [Stylesheet.ofNodes_eq_prepend]
    exact Stylesheet.lawful_empty.prepend hnodes (by simp)
  have before := h.lawful start
  have after := h'.lawful before
  refine ⟨after.distinct, fun i hi => ⟨after.named i hi, after.bounded i hi⟩,
    after.newId_notMem, ?_, ?_⟩
  · have grown := ((Stylesheet.grows_ofNodes nodes).trans h.grows).trans h'.grows
    rw [List.append_assoc]
    exact Stylesheet.given_of_grows grown
  · intro g hg ref href
    obtain ⟨r, hr, hcandidate⟩ := candidate_of_mem_groups hg href
    have hfound := (candidate_spec hcandidate).1
    obtain ⟨k, hk⟩ := List.mem_iff_getElem?.1 (Stylesheet.mem_rules_iff.1 hr)
    obtain ⟨j, hleads⟩ := leadsTo_of_findImage before.distinct.ruleIds_nodup hk hfound
    exact ⟨k, j, r, hk, hfound, hleads, hleads.grows h'.grows after.distinct.ruleIds_nodup⟩

/-- A rule whose declaration comes with an id below those that are given out. -/
def dotRule : Rule :=
  { selectors := ["a"]
    body := [.declaration { property := "background", value := "url(dot.png)", id := -3 }]
    id := 7 }

/-- A placing that adds a size to a rule and then misses the declaration to replace. -/
def halfway : Edit :=
  .place [{ url := "dot.png", ruleId := 7, declarationId := 5, selectors := [] }]
    ⟨2, 3, [("dot.png", ⟨0, 0, 2, 3⟩)]⟩ "sprite.png" fun url => url

theorem Edited.keeps_halfway :
    let sheet := Stylesheet.ofNodes [.rule dotRule]
    let comment : Node := .comment { text := "seen", id := 40 }
    (([Node.rule dotRule].flatMap Node.ids).filter (· ≠ 0)).Nodup ∧
    Edited sheet [] (Edit.newId.apply sheet) ∧
    Edited (Edit.newId.apply sheet) [comment]
      ((Edit.prepend [comment]).apply (halfway.apply (Edit.newId.apply sheet))) ∧
    ∀ g ∈ groups (Edit.newId.apply sheet), ∀ ref ∈ g.members, ∃ k j,
      LeadsTo ((Edit.prepend [comment]).apply (halfway.apply (Edit.newId.apply sheet))) ref
        (1 + k) j := by
  intro sheet comment
  have hnodes : (([Node.rule dotRule].flatMap Node.ids).filter (· ≠ 0)).Nodup := by decide
  have first : Edited sheet [] (Edit.newId.apply sheet) := .step .newId .none trivial
  have second : Edited (Edit.newId.apply sheet) [comment]
      ((Edit.prepend [comment]).apply (halfway.apply (Edit.newId.apply sheet))) :=
    .step (.prepend [comment]) (.step halfway .none trivial) ⟨by decide, by decide⟩
  refine ⟨hnodes, first, second, ?_⟩
  obtain ⟨-, -, -, -, hleads⟩ := Edited.keeps hnodes first second
  intro g hg ref href
  obtain ⟨k, j, -, -, -, -, hlater⟩ := hleads g hg ref href
  exact ⟨k, j, hlater⟩

end Spriting.Background

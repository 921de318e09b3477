import Mathlib.Data.List.Flatten
import Spriting.Proofs.Background.Exact

/-!
# Groups may be placed in any order

Groups share no rule, so what placing them makes of a node is told by the one target that
leads to it, if any.  The order decides only on which of the fresh ids a rule gets.

* `Moved.trans`: targets that share no rule are placed together as one after another;
* `placeGroups_moved`: so a run over groups moves what all their targets lead to;
* `Moved.alike`: and whatever the order of the targets, a node becomes the same, the id of
  the size aside.
-/

namespace Spriting.Background

open Css Layout

/-- What a group is placed with: the sprite sheet, its url, and the way to the path of an
image. -/
structure Fitting where
  sprite : SpriteMap
  url : String
  resolve : String → String

/-- The members of a group that have a box. -/
def Fitting.targets (f : Fitting) (g : Group) : List Target :=
  Background.targets f.sprite f.resolve g.members

/-- The rule that names the sprite sheet of a group, if any selector shows an image of it. -/
def Fitting.rule (f : Fitting) (g : Group) : Option Rule :=
  let selectors := (f.targets g).flatMap fun t => t.ref.selectors
  if selectors = [] then none else some (sheetRule f.url selectors)

/-- Places groups one after another: what the sheet becomes, and what each group gives. -/
def placeGroups (fit : Group → Fitting) (sheet : Stylesheet) :
    List Group → Stylesheet × List (Except Dangling (Option Rule))
  | [] => (sheet, [])
  | g :: gs =>
    let placed := placeGroup sheet g.members (fit g).sprite (fit g).url (fit g).resolve
    let rest := placeGroups fit placed.sheet gs
    (rest.1, placed.result :: rest.2)

/-- Nodes that are the same, except that a size at the end may have another id. -/
inductive SizedAlike : Node → Node → Prop where
  | same (n : Node) : SizedAlike n n
  | sized (r : Rule) (value : String) (i j : Int) :
    SizedAlike (.rule (withLast r ⟨"background-size", value, i⟩))
      (.rule (withLast r ⟨"background-size", value, j⟩))

variable {sheet : Stylesheet} {gs : List Group}
  {highest highest' : Int} {ts ts' : List Target} {a b c : Node}

/-! ## Targets one after another -/

theorem Moved.trans (h : Moved highest ts a b) (h' : Moved highest' ts' b c)
    (hhighest : highest ≤ highest')
    (hapart : ∀ t ∈ ts, ∀ t' ∈ ts', t.ref.ruleId ≠ t'.ref.ruleId) :
    Moved highest (ts ++ ts') a c := by
  cases h with
  | kept hnone =>
    cases h' with
    | kept hnone' =>
      apply Moved.kept
      intro r hr t ht
      rcases List.mem_append.1 ht with ht | ht
      · exact hnone r hr t ht
      · exact hnone' r hr t ht
    | moved ht hid hd hfresh hsplit hfirst =>
      exact .moved (List.mem_append_right _ ht) hid hd (Int.lt_of_le_of_lt hhighest hfresh)
        hsplit hfirst
  | moved ht hid hd hfresh hsplit hfirst =>
    cases h' with
    | kept => exact .moved (List.mem_append_left _ ht) hid hd hfresh hsplit hfirst
    | moved ht' hid' => exact absurd (hid.trans hid'.symm) (hapart _ ht _ ht')

/-- A node becomes the same whatever the order of the targets and the ids given before, the
id of the size aside. -/
theorem Moved.alike (h : Moved highest ts a b) (h' : Moved highest' ts' a c)
    (hperm : ts.Perm ts') (hone : (ts.map fun t => t.ref.ruleId).Nodup) : SizedAlike b c := by
  cases h with
  | kept hnone =>
    cases h' with
    | kept => exact .same _
    | moved ht hid => exact absurd hid (hnone _ rfl _ (hperm.mem_iff.2 ht))
  | @moved t r d before after i ht hid hd _ hsplit hfirst =>
    cases h' with
    | kept hnone => exact absurd hid (hnone _ rfl _ (hperm.mem_iff.1 ht))
    | @moved t' _ d' before' after' j ht' hid' hd' _ hsplit' hfirst' =>
      obtain rfl : t = t' :=
        List.inj_on_of_nodup_map hone ht (hperm.mem_iff.2 ht') (hid.trans hid'.symm)
      have same : d'.id = d.id := hd'.symm.trans hd
      -- in both orders the first declaration with the id has been replaced
      let position : Declaration :=
        ⟨"background-position", toUnit (-t.box.x) ++ " " ++ toUnit (-t.box.y), d.id⟩
      have replaced := replaceDeclaration_at position hsplit hfirst
      have replaced' := replaceDeclaration_at position hsplit' hfirst'
      rw [same, replaced] at replaced'
      have bodies : before ++ .declaration position :: after =
          before' ++ .declaration position :: after' :=
        congrArg Rule.body (Option.some.inj replaced')
      rw [same, ← bodies]
      exact .sized { r with body := before ++ .declaration position :: after }
        (toUnit t.width ++ " " ++ toUnit t.height) i j

/-! ## Groups one after another -/

theorem targets_ids_sublist (fit : Group → Fitting) (gs : List Group) :
    ((gs.flatMap fun g => (fit g).targets g).map fun t => t.ref.ruleId).Sublist
      (gs.flatMap fun g => g.members.map Reference.ruleId) := by
  rw [List.map_flatMap]
  apply List.Sublist.flatMap_right
  intro g _
  have members := (targets_sublist (fit g).sprite (fit g).resolve g.members).map Reference.ruleId
  rwa [List.map_map] at members

/-- A run over groups that share no rule moves what their targets lead to, and gives every
group the rule for the selectors that its members had from the start. -/
theorem placeGroups_moved (fit : Group → Fitting) (hsheet : sheet.Numbered)
    (hmembers : (gs.flatMap fun g => g.members.map Reference.ruleId).Nodup)
    (hholds : ∀ g ∈ gs, ∀ ref ∈ g.members, Holds sheet ref) :
    List.Forall₂ (Moved sheet.lastId (gs.flatMap fun g => (fit g).targets g)) sheet.nodes
        (placeGroups fit sheet gs).1.nodes ∧
      (placeGroups fit sheet gs).2 = gs.map fun g => .ok ((fit g).rule g) := by
  induction gs generalizing sheet with
  | nil =>
    constructor
    · apply List.forall₂_same.2
      intro n _
      exact .kept fun r _ t ht => (List.not_mem_nil ht).elim
    · rfl
  | cons g gs ih =>
    obtain ⟨hgroup, hrest⟩ := List.forall_mem_cons.1 hholds
    rw [List.flatMap_cons] at hmembers
    obtain ⟨hnodup, hothers, hdisjoint⟩ := List.nodup_append.1 hmembers
    have selectors := placeMembers_of_holds (fit g).sprite (fit g).resolve hgroup
    have places := places_of_placeMembers selectors
    have leads : ∀ ref ∈ g.members, Leads sheet ref := fun ref href => (hgroup ref href).leads
    obtain ⟨hmoved, hrules⟩ := ih (places.numbered hsheet) hothers
      fun g' hg' ref href => places.holds (hrest g' hg' ref href)
    have apart : ∀ t ∈ (fit g).targets g, ∀ t' ∈ gs.flatMap fun g => (fit g).targets g,
        t.ref.ruleId ≠ t'.ref.ruleId := by
      intro t ht t' ht'
      have mine := List.mem_map_of_mem (f := Reference.ruleId) (mem_targets_iff.1 ht).1
      have other := (targets_ids_sublist fit gs).subset
        (List.mem_map_of_mem (f := fun t => t.ref.ruleId) ht')
      exact hdisjoint _ mine _ other
    constructor
    · exact forall₂_trans (fun a b c hab hbc => hab.trans hbc places.lastId_le apart)
        (places.moved hsheet hnodup leads) hmoved
    · have result : (placeGroup sheet g.members (fit g).sprite (fit g).url
          (fit g).resolve).result = .ok ((fit g).rule g) := by
        change Except.map _ (placeMembers _ _ _ _).selectors = _
        rw [selectors]
        rfl
      exact congrArg₂ List.cons result hrules

/-- **Groups may be placed in any order.** However the groups of a sheet that has been read are
ordered, and whatever sprite sheets and urls they are placed with, every node becomes the same,
the ids of the sizes aside, and every group gives the same rule. -/
theorem placeGroups_any_order (fit : Group → Fitting) {source : String} {sheet : Stylesheet}
    (hparse : parse source = .ok sheet) :
    ∃ rule : Group → Option Rule, ∀ gs : List Group, gs.Perm (groups sheet) →
      (placeGroups fit sheet gs).2 = gs.map (fun g => .ok (rule g)) ∧
      ∀ gs' : List Group, gs'.Perm (groups sheet) →
        List.Forall₂ SizedAlike (placeGroups fit sheet gs).1.nodes
          (placeGroups fit sheet gs').1.nodes := by
  have numbered := parse_numbered hparse
  have hids := numbered.distinct.ruleIds_nodup
  have nodup : ∀ gs : List Group, gs.Perm (groups sheet) →
      (gs.flatMap fun g => g.members.map Reference.ruleId).Nodup :=
    fun gs hgs => (hgs.flatMap_right _).nodup_iff.2 (groups_ruleIds_nodup hids)
  have run (gs : List Group) (hgs : gs.Perm (groups sheet)) :=
    placeGroups_moved fit numbered (nodup gs hgs)
      fun g hg ref href => holds_of_mem_groups hids (hgs.mem_iff.1 hg) href
  refine ⟨fun g => (fit g).rule g, fun gs hgs => ⟨(run gs hgs).2, fun gs' hgs' => ?_⟩⟩
  have perm := (hgs.trans hgs'.symm).flatMap_right fun g => (fit g).targets g
  have one := (targets_ids_sublist fit gs).nodup (nodup gs hgs)
  exact forall₂_trans (fun b a c hab hac => hab.alike hac perm one)
    (List.Forall₂.flip (run gs hgs).1) (run gs' hgs').1

/-- Two groups in both orders: what they give is the same, and the sheets differ in ids. -/
theorem placeGroups_any_order_two :
    let source := "a\x7bbackground:url(a.png)\x7db\x7bbackground:url(b.png) repeat-x\x7d"
    let a : Rule :=
      { selectors := ["a"], body := [.declaration ⟨"background", "url(a.png)", 2⟩], id := 1 }
    let b : Rule :=
      { selectors := ["b"], body := [.declaration ⟨"background", "url(b.png) repeat-x", 4⟩],
        id := 3 }
    let sheet : Stylesheet := ⟨[.rule a, .rule b], 4⟩
    let sprite : SpriteMap := ⟨2, 2, [("a.png", ⟨0, 0, 2, 2⟩), ("b.png", ⟨0, 0, 2, 2⟩)]⟩
    let fit : Group → Fitting := fun _ => ⟨sprite, "s.png", id⟩
    parse source = .ok sheet ∧ (groups sheet).reverse.Perm (groups sheet) ∧
      (placeGroups fit sheet (groups sheet).reverse).2 =
        (placeGroups fit sheet (groups sheet)).2.reverse ∧
      List.Forall₂ SizedAlike (placeGroups fit sheet (groups sheet)).1.nodes
        (placeGroups fit sheet (groups sheet).reverse).1.nodes ∧
      (placeGroups fit sheet (groups sheet)).1 ≠
        (placeGroups fit sheet (groups sheet).reverse).1 := by
  intro source a b sheet sprite fit
  have parsed : parse source = .ok sheet := by decide +kernel
  have back := List.reverse_perm (groups sheet)
  obtain ⟨rule, gives⟩ := placeGroups_any_order fit parsed
  obtain ⟨forth, alike⟩ := gives (groups sheet) (.refl _)
  refine ⟨parsed, back, ?_, alike _ back, by decide +kernel⟩
  rw [(gives _ back).1, forth, List.map_reverse]

end Spriting.Background

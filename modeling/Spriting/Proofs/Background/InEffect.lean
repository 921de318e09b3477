import Spriting.Background.Placement
import Spriting.Proofs.Background.Grouping
import Spriting.Proofs.Css.Freshness

/-!
# The image in effect

Of all the image declarations for a selector the last one in the sheet is in effect.
Those that a member has its image from are recorded, one in each rule of a member.

* `candidate_of_declarationId`, `isLeft_of_ne`: which declarations are recorded;
* `images_of_placed`: placing a member takes the recorded declaration of its rule away.
-/

namespace Spriting.Background

open Css Layout Text

/-- The image declarations of a node for a selector, if it is a rule that lists it. -/
def imagesOf (s : String) : Node → List Declaration
  | .rule r => if s ∈ r.selectors then r.declarations.filter (sets imageProperties) else []
  | _ => []

/-- The image declarations for a selector, in the order of the sheet. -/
def imagesFor (s : String) (sheet : Stylesheet) : List Declaration :=
  sheet.nodes.flatMap (imagesOf s)

/-- The image declaration that is in effect for a selector. -/
def inEffect (s : String) (sheet : Stylesheet) : Option Declaration := (imagesFor s sheet).getLast?

/-- The ids of the declarations that members of groups have their images from. -/
def recordedIds (sheet : Stylesheet) : List Int :=
  (groups sheet).flatMap fun g => g.members.map Reference.declarationId

/-- Whether a declaration is left in the sheet: no member has its image from it. -/
def isLeft (sheet : Stylesheet) (d : Declaration) : Bool := d.id ∉ recordedIds sheet

variable {sheet : Stylesheet} {g : Group} {ref : Reference} {s : String} {r : Rule}
  {d e : Declaration}

theorem mem_imagesOf {n : Node} :
    d ∈ imagesOf s n ↔ ∃ r, n = .rule r ∧ s ∈ r.selectors ∧ d ∈ r.declarations ∧
      sets imageProperties d = true := by
  cases n with
  | rule r =>
    simp only [imagesOf, Node.rule.injEq, exists_eq_left']
    by_cases hs : s ∈ r.selectors
    · simp [hs]
    · simp [hs]
  | comment c => simp [imagesOf]
  | atRule a => simp [imagesOf]

theorem mem_recordedIds {i : Int} :
    i ∈ recordedIds sheet ↔ ∃ g ∈ groups sheet, ∃ ref ∈ g.members, ref.declarationId = i := by
  simp [recordedIds]

/-! ## Which declarations are recorded -/

/-- A member whose declaration is found in a rule is the member of this rule. -/
theorem candidate_of_declarationId (hdistinct : sheet.Distinct) (hr : .rule r ∈ sheet.nodes)
    (hd : d ∈ r.declarations) (hg : g ∈ groups sheet) (href : ref ∈ g.members)
    (hid : ref.declarationId = d.id) : candidate r = some (g.key, ref) := by
  obtain ⟨r', hr', hc⟩ := candidate_of_mem_groups hg href
  obtain ⟨-, -, d', hdecides, hd'⟩ := findImage_spec (candidate_spec hc).1
  obtain ⟨n, hn, hrule⟩ := List.mem_filterMap.1 hr'
  obtain rfl : n = .rule r' := by
    cases n <;> cases hrule
    rfl
  obtain ⟨j, hj⟩ := List.mem_iff_getElem?.1 hn
  obtain ⟨k, hk⟩ := List.mem_iff_getElem?.1 hr
  have hsame : j = k :=
    hdistinct.eq_of_mem_ids hj hk (id_mem_ids hdecides.mem) (hd' ▸ hid ▸ id_mem_ids hd)
  rw [hsame, hk] at hj
  cases hj
  exact hc

/-- A rule has one image at most, so in the rule of a member all other declarations are left. -/
theorem isLeft_of_ne (hdistinct : sheet.Distinct) (hr : .rule r ∈ sheet.nodes)
    (hd : d ∈ r.declarations) (hg : g ∈ groups sheet) (href : ref ∈ g.members)
    (hid : ref.declarationId = d.id) (he : e ∈ r.declarations) (hne : e.id ≠ d.id) :
    isLeft sheet e = true := by
  refine decide_eq_true fun hrecorded => hne ?_
  obtain ⟨g', hg', ref', href', hid'⟩ := mem_recordedIds.1 hrecorded
  have hc := candidate_of_declarationId hdistinct hr hd hg href hid
  have hc' := candidate_of_declarationId hdistinct hr he hg' href' hid'
  have hsame : ref' = ref := congrArg Prod.snd (Option.some.inj (hc'.symm.trans hc))
  rw [← hid', hsame, hid]

/-- The selectors of a rule in which the image of a member is found are selectors of its group. -/
theorem mem_selectorsIn (hdistinct : sheet.Distinct) (hd : d ∈ imagesFor s sheet)
    (hg : g ∈ groups sheet) (href : ref ∈ g.members) (hid : ref.declarationId = d.id) :
    s ∈ selectorsIn sheet g := by
  obtain ⟨n, hn, hdn⟩ := List.mem_flatMap.1 hd
  obtain ⟨r, rfl, hs, hdr, -⟩ := mem_imagesOf.1 hdn
  have hc := candidate_of_declarationId hdistinct hn hdr hg href hid
  have hmember : r.id ∈ g.members.map Reference.ruleId :=
    candidate_ruleId hc ▸ List.mem_map_of_mem href
  have hr : r ∈ sheet.rules := List.mem_filterMap.2 ⟨_, hn, rfl⟩
  exact List.mem_flatMap.2 ⟨r, List.mem_filter.2 ⟨hr, decide_eq_true hmember⟩, hs⟩

/-- A group with a selector is the first one with it if no group before has it. -/
theorem find?_selectorsIn_iff {before after : List Group}
    (hsplit : groups sheet = before ++ g :: after) (hs : s ∈ selectorsIn sheet g) :
    (groups sheet).find? (s ∈ selectorsIn sheet ·) = some g ↔
      ∀ g' ∈ before, s ∉ selectorsIn sheet g' := by
  have hnodup : (before ++ g :: after).Nodup := by
    rw [← hsplit]
    exact List.Nodup.of_map Group.key (gather_keys_nodup _)
  have hnot : g ∉ before := by
    intro hmem
    exact (List.nodup_append.1 hnodup).2.2 g hmem g List.mem_cons_self rfl
  rw [hsplit, List.find?_append]
  constructor
  · intro hfind g' hg' hs'
    cases hbefore : before.find? (s ∈ selectorsIn sheet ·) with
    | none => exact List.find?_eq_none.1 hbefore g' hg' (decide_eq_true hs')
    | some first =>
      rw [hbefore, Option.some_or] at hfind
      exact hnot (Option.some.inj hfind ▸ List.mem_of_find?_eq_some hbefore)
  · intro hbefore
    have hnone : before.find? (s ∈ selectorsIn sheet ·) = none :=
      List.find?_eq_none.2 fun g' hg' => by simpa using hbefore g' hg'
    rw [hnone, Option.none_or, List.find?_cons_of_pos (by simpa using hs)]

/-! ## What placing takes away -/

theorem position_sets_no_image (box : Box) (id : Int) :
    sets imageProperties (positionDeclaration box id) = false := by
  change imageProperties.contains (lowered "background-position") = false
  decide

theorem size_sets_no_image (sprite : SpriteMap) (id : Int) :
    sets imageProperties (sizeDeclaration sprite id) = false := by
  change imageProperties.contains (lowered "background-size") = false
  decide

/-- What comes into the rule of a member is no image, and its own image goes out. -/
theorem images_of_placed {before after : List BodyItem} {position size : Declaration}
    (hbody : r.body = before ++ .declaration d :: after) (hd : isLeft sheet d = false)
    (hothers : ∀ e ∈ r.declarations, e.id ≠ d.id → isLeft sheet e = true)
    (hnodup : (r.declarations.map Declaration.id).Nodup)
    (hposition : sets imageProperties position = false)
    (hsize : sets imageProperties size = false) :
    (Rule.declarations { r with
        body := before ++ .declaration position :: after ++ [.declaration size] }).filter
        (sets imageProperties) =
      (r.declarations.filter (sets imageProperties)).filter (isLeft sheet) := by
  let upper := before.filterMap BodyItem.declaration?
  let lower := after.filterMap BodyItem.declaration?
  have hold : r.declarations = upper ++ d :: lower := by
    simp [Rule.declarations, hbody, BodyItem.declaration?, upper, lower]
  have hnew : Rule.declarations { r with
      body := before ++ .declaration position :: after ++ [.declaration size] } =
        upper ++ position :: lower ++ [size] := by
    simp [Rule.declarations, BodyItem.declaration?, upper, lower]
  rw [hold, (List.perm_middle.map Declaration.id).nodup_iff, List.map_cons,
    List.nodup_cons] at hnodup
  have hleft : ∀ l : List Declaration, (∀ e ∈ l, e ∈ upper ++ lower) →
      (l.filter (sets imageProperties)).filter (isLeft sheet) =
        l.filter (sets imageProperties) := by
    intro l hl
    rw [List.filter_eq_self]
    intro e he
    have hmem : e ∈ upper ++ lower := hl e (List.mem_of_mem_filter he)
    apply hothers e
    · rw [hold]
      exact List.perm_middle.mem_iff.2 (List.mem_cons_of_mem d hmem)
    · intro hid
      exact hnodup.1 (hid ▸ List.mem_map_of_mem hmem)
  have hupper := hleft upper fun e he => List.mem_append_left _ he
  have hlower := hleft lower fun e he => List.mem_append_right _ he
  rw [hnew, hold]
  simp only [List.filter_append, List.filter_cons, List.filter_nil, hposition, hsize, hupper,
    Bool.false_eq_true, if_false, List.append_nil]
  cases hsets : sets imageProperties d with
  | true => simp only [if_true, List.filter_cons, hd, Bool.false_eq_true, if_false, hlower]
  | false => simp only [Bool.false_eq_true, if_false, hlower]

end Spriting.Background

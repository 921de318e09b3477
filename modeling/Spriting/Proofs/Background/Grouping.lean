import Spriting.Background.Group
import Spriting.Proofs.Css.Editing

/-!
# What groups hold

Every member of a group comes from a rule of the sheet whose image may go into
a sprite sheet, and no rule comes twice, neither in one group nor in two.

* `mem_groups_iff`: the members of the group of a key;
* `groups_ruleIds_nodup`: members of all groups have different rules;
* `selectorsIn_eq`: members of a group have their selectors in the order of the sheet.
-/

namespace Spriting.Background

open Css

/-! ## The image of a rule -/

theorem mem_of_decideImage {ds : List Declaration} {d : Declaration} {url : String}
    (h : decideImage ds = some (d, url)) : d ∈ ds := by
  induction ds with
  | nil => cases h
  | cons e ds ih =>
    unfold decideImage at h
    split at h
    · exact List.mem_cons_of_mem _ (ih h)
    · cases h
    · cases h
      exact List.mem_cons_self

/-- `d` is the declaration that decides on the image of `r`, and `url` the image. -/
def Decides (r : Rule) (d : Declaration) (url : String) : Prop :=
  decideImage (r.declarations.filter (sets imageProperties)).reverse = some (d, url)

theorem Decides.mem {r : Rule} {d : Declaration} {url : String} (h : Decides r d url) :
    d ∈ r.declarations := by
  have := List.mem_reverse.1 (mem_of_decideImage h)
  exact List.mem_of_mem_filter this

/-- A reference names the rule it was found in, and the declaration that decided on it. -/
theorem findImage_spec {r : Rule} {ref : Reference} (h : findImage r = some ref) :
    ref.ruleId = r.id ∧ ref.selectors = r.selectors ∧
      ∃ d, Decides r d ref.url ∧ ref.declarationId = d.id := by
  obtain ⟨⟨d, url⟩, hd, rfl⟩ := Option.map_eq_some_iff.1 h
  exact ⟨rfl, rfl, d, hd, rfl⟩

theorem candidate_spec {r : Rule} {key : GroupKey} {ref : Reference}
    (h : candidate r = some (key, ref)) : findImage r = some ref ∧ isEligible r ref = true := by
  obtain ⟨found, hfound, he⟩ := Option.map_eq_some_iff.1 h
  cases he
  exact Option.filter_eq_some_iff.1 hfound

theorem candidate_ruleId {r : Rule} {p : GroupKey × Reference} (h : candidate r = some p) :
    p.2.ruleId = r.id :=
  (findImage_spec (candidate_spec h).1).1

/-! ## Gathering -/

variable {refs : List (GroupKey × Reference)} {g : Group} {ref : Reference}

theorem mem_gather_members (hg : g ∈ gather refs) : ref ∈ g.members ↔ (g.key, ref) ∈ refs := by
  obtain ⟨key, -, rfl⟩ := List.mem_map.1 hg
  constructor
  · intro h
    obtain ⟨⟨key', ref'⟩, hmem, rfl⟩ := List.mem_map.1 h
    obtain ⟨hrefs, hkey⟩ := List.mem_filter.1 hmem
    obtain rfl : key' = key := by simpa using hkey
    exact hrefs
  · intro h
    exact List.mem_map.2 ⟨(key, ref), List.mem_filter.2 ⟨h, by simp⟩, rfl⟩

theorem exists_mem_gather {key : GroupKey} (h : (key, ref) ∈ refs) :
    ∃ g ∈ gather refs, g.key = key ∧ ref ∈ g.members := by
  have hkey : key ∈ (refs.map Prod.fst).eraseDups :=
    List.mem_eraseDups.2 (List.mem_map.2 ⟨_, h, rfl⟩)
  have hg : ⟨key, (refs.filter (·.1 == key)).map (·.2)⟩ ∈ gather refs :=
    List.mem_map.2 ⟨key, hkey, rfl⟩
  exact ⟨_, hg, rfl, (mem_gather_members hg).2 h⟩

theorem gather_keys_nodup (refs : List (GroupKey × Reference)) :
    ((gather refs).map Group.key).Nodup := by
  have : (gather refs).map Group.key = (refs.map Prod.fst).eraseDups := by
    rw [gather, List.map_map]
    exact List.map_id _
  rw [this]
  exact nodup_eraseDups _

theorem gather_members_nodup (h : (refs.map fun p => p.2.ruleId).Nodup) (hg : g ∈ gather refs) :
    (g.members.map Reference.ruleId).Nodup := by
  obtain ⟨key, -, rfl⟩ := List.mem_map.1 hg
  rw [List.map_map]
  exact h.sublist (List.filter_sublist.map _)

/-- No rule is in two groups. -/
theorem gather_ruleIds_nodup (h : (refs.map fun p => p.2.ruleId).Nodup) :
    ((gather refs).flatMap fun g => g.members.map Reference.ruleId).Nodup := by
  rw [List.nodup_flatMap]
  refine ⟨fun g hg => gather_members_nodup h hg, ?_⟩
  have keys := gather_keys_nodup refs
  rw [List.Nodup, List.pairwise_map] at keys
  refine keys.imp_of_mem ?_
  intro g g' hg hg' hkey i hi hi'
  obtain ⟨ref, href, rfl⟩ := List.mem_map.1 hi
  obtain ⟨ref', href', hid⟩ := List.mem_map.1 hi'
  have same := List.inj_on_of_nodup_map h ((mem_gather_members hg').1 href')
    ((mem_gather_members hg).1 href) hid
  exact hkey (congrArg Prod.fst same).symm

/-! ## The groups of a sheet -/

variable {sheet : Stylesheet}

theorem candidate_of_mem_groups (hg : g ∈ groups sheet) (href : ref ∈ g.members) :
    ∃ r ∈ sheet.rules, candidate r = some (g.key, ref) :=
  List.mem_filterMap.1 ((mem_gather_members hg).1 href)

/-- The rule with the id of a member is the one in which the member was found. -/
theorem candidate_of_ruleId {r : Rule} (hids : sheet.ruleIds.Nodup) (hr : r ∈ sheet.rules)
    (hg : g ∈ groups sheet) (href : ref ∈ g.members) (hid : ref.ruleId = r.id) :
    candidate r = some (g.key, ref) := by
  obtain ⟨r', hr', hc⟩ := candidate_of_mem_groups hg href
  have hsame : r' = r :=
    Stylesheet.eq_of_ruleIds_nodup hids hr' hr ((candidate_ruleId hc).symm.trans hid)
  exact hsame ▸ hc

/-- The members of the group of a key are the images of that key that may go into a
sprite sheet. -/
theorem mem_groups_iff {key : GroupKey} :
    (∃ g ∈ groups sheet, g.key = key ∧ ref ∈ g.members) ↔
      ∃ r ∈ sheet.rules, candidate r = some (key, ref) := by
  constructor
  · rintro ⟨g, hg, rfl, href⟩
    exact candidate_of_mem_groups hg href
  · rintro ⟨r, hr, h⟩
    exact exists_mem_gather (List.mem_filterMap.2 ⟨r, hr, h⟩)

theorem groups_ruleIds_nodup (h : sheet.ruleIds.Nodup) :
    ((groups sheet).flatMap fun g => g.members.map Reference.ruleId).Nodup := by
  apply gather_ruleIds_nodup
  refine h.sublist ?_
  unfold Stylesheet.ruleIds
  induction sheet.rules with
  | nil => exact List.Sublist.slnil
  | cons r rules ih =>
    rw [List.filterMap_cons]
    cases hc : candidate r with
    | none => exact ih.trans (List.sublist_cons_self _ _)
    | some p =>
      simp only [List.map_cons, candidate_ruleId hc]
      exact ih.cons_cons _

theorem members_ruleIds_nodup (h : sheet.ruleIds.Nodup) (hg : g ∈ groups sheet) :
    (g.members.map Reference.ruleId).Nodup :=
  (List.nodup_flatMap.1 (groups_ruleIds_nodup h)).1 g hg

/-! ## The selectors of a group -/

/-- The selectors of the rules of `g`, in the order of the sheet. -/
def selectorsIn (sheet : Stylesheet) (g : Group) : List String :=
  (sheet.rules.filter fun r => r.id ∈ g.members.map Reference.ruleId).flatMap Rule.selectors

theorem selectors_of_candidates (key : GroupKey) (rules : List Rule) :
    (((rules.filterMap candidate).filter (·.1 == key)).map (·.2)).flatMap Reference.selectors =
      (rules.filter fun r => (candidate r).any (·.1 == key)).flatMap Rule.selectors := by
  induction rules with
  | nil => rfl
  | cons r rules ih =>
    cases hc : candidate r with
    | none => simpa [List.filterMap_cons, List.filter_cons, hc] using ih
    | some found =>
      obtain ⟨-, hselectors, -⟩ := findImage_spec (candidate_spec hc).1
      by_cases hkey : found.1 = key
      · simpa [List.filterMap_cons, List.filter_cons, hc, hkey, hselectors] using ih
      · simpa [List.filterMap_cons, List.filter_cons, hc, hkey] using ih

/-- Members have their selectors in the order of the sheet, and each as often as its rule. -/
theorem selectorsIn_eq (hids : sheet.ruleIds.Nodup) (hg : g ∈ groups sheet) :
    selectorsIn sheet g = g.members.flatMap Reference.selectors := by
  have isMember : ∀ r ∈ sheet.rules,
      decide (r.id ∈ g.members.map Reference.ruleId) = (candidate r).any (·.1 == g.key) := by
    intro r hr
    rw [Bool.eq_iff_iff, decide_eq_true_iff, Option.any_eq_true]
    constructor
    · intro hid
      obtain ⟨ref, href, hid⟩ := List.mem_map.1 hid
      exact ⟨_, candidate_of_ruleId hids hr hg href hid, by simp⟩
    · rintro ⟨⟨key, ref⟩, hc, hkey⟩
      obtain rfl : key = g.key := by simpa using hkey
      have href : ref ∈ g.members :=
        (mem_gather_members hg).2 (List.mem_filterMap.2 ⟨r, hr, hc⟩)
      exact candidate_ruleId hc ▸ List.mem_map_of_mem href
  obtain ⟨key, -, rfl⟩ := List.mem_map.1 hg
  rw [selectorsIn, List.filter_congr isMember]
  exact (selectors_of_candidates key sheet.rules).symm

end Spriting.Background

import Spriting.Proofs.Background.Grouping

/-!
# Groups divide the images of a sheet

Of the rules of a sheet those count that have an image which may go into a sprite sheet, each
at its place in the sheet.  The groups take all of them, and each in one group only.

* `Partitions`: what it is to divide the images of a sheet into groups;
* `groups_partitions`, `Partitions.unique`: the groups of a sheet do, and nothing else does;
* `groups_bare_congr`: nodes that have no part in it change no group, ids aside.
-/

namespace Spriting.Background

open Css

/-- The rule at place `k` of the sheet has the image `ref`, which may go into a sprite sheet,
and `key` is its density and its repeat mode. -/
def Offers (sheet : Stylesheet) (k : Nat) (key : GroupKey) (ref : Reference) : Prop :=
  ∃ r, sheet.nodes[k]? = some (.rule r) ∧ findImage r = some ref ∧ isEligible r ref = true ∧
    key = ⟨pixelRatio ref.url, repeatMode r⟩

/-- The members of `g` are the images of its key, in the order of the sheet. -/
def Collects (sheet : Stylesheet) (g : Group) : Prop :=
  ∃ places : List Nat, places.Pairwise (· < ·) ∧
    (∀ k, k ∈ places ↔ ∃ ref, Offers sheet k g.key ref) ∧
    List.Forall₂ (fun k ref => Offers sheet k g.key ref) places g.members

/-- The first member of `g` stands before all members of `g'`. -/
def Precedes (sheet : Stylesheet) (g g' : Group) : Prop :=
  ∃ k ref, Offers sheet k g.key ref ∧ ∀ k' ref', Offers sheet k' g'.key ref' → k < k'

/-- `gs` divides the images of a sheet that may go into sprite sheets. -/
structure Partitions (sheet : Stylesheet) (gs : List Group) : Prop where
  /-- The members of all groups are the images of the rules, each once. -/
  each : (gs.flatMap Group.members).Perm
    (sheet.rules.filterMap fun r => (findImage r).filter (isEligible r))
  covers : ∀ k key ref, Offers sheet k key ref → ∃ g ∈ gs, g.key = key
  collects : ∀ g ∈ gs, Collects sheet g
  keys : (gs.map Group.key).Nodup
  nonempty : ∀ g ∈ gs, g.members ≠ []
  ordered : gs.Pairwise (Precedes sheet)

variable {sheet sheet' : Stylesheet} {gs gs' : List Group} {g g' : Group} {key : GroupKey}
  {ref ref' : Reference} {r : Rule} {k : Nat}

theorem candidate_eq_some_iff :
    candidate r = some (key, ref) ↔ findImage r = some ref ∧ isEligible r ref = true ∧
      key = ⟨pixelRatio ref.url, repeatMode r⟩ := by
  constructor
  · intro h
    obtain ⟨found, heligible⟩ := candidate_spec h
    obtain ⟨ref', -, he⟩ := Option.map_eq_some_iff.1 h
    obtain ⟨rfl, rfl⟩ := Prod.mk.inj he
    exact ⟨found, heligible, rfl⟩
  · rintro ⟨found, heligible, rfl⟩
    simp [candidate, found, Option.filter, heligible]

/-! ## Images at their places -/

/-- The image of a node that may go into a sprite sheet, with its key. -/
def offerOf (n : Node) : Option (GroupKey × Reference) := n.rule?.bind candidate

/-- The images of a sheet that may go into sprite sheets, each with its place. -/
def offers (sheet : Stylesheet) : List (Nat × GroupKey × Reference) :=
  sheet.nodes.zipIdx.filterMap fun p => (offerOf p.1).map (p.2, ·)

theorem offerOf_eq_some_iff {n : Node} {p : GroupKey × Reference} :
    offerOf n = some p ↔ ∃ r, n = .rule r ∧ candidate r = some p := by
  cases n <;> simp [offerOf, Node.rule?]

theorem offers_iff : Offers sheet k key ref ↔
    ∃ n, sheet.nodes[k]? = some n ∧ offerOf n = some (key, ref) := by
  simp only [Offers, offerOf_eq_some_iff, candidate_eq_some_iff]
  constructor
  · rintro ⟨r, hr, h⟩
    exact ⟨_, hr, r, rfl, h⟩
  · rintro ⟨_, hn, r, rfl, h⟩
    exact ⟨r, hn, h⟩

theorem mem_offers_iff : (k, key, ref) ∈ offers sheet ↔ Offers sheet k key ref := by
  simp only [offers, List.mem_filterMap, Prod.exists, Option.map_eq_some_iff, Prod.mk.injEq,
    List.mem_zipIdx_iff_getElem?, offers_iff]
  constructor
  · rintro ⟨n, j, hn, key', ref', hoffer, rfl, rfl, rfl⟩
    exact ⟨n, hn, hoffer⟩
  · rintro ⟨n, hn, hoffer⟩
    exact ⟨n, k, hn, key, ref, hoffer, rfl, rfl, rfl⟩

theorem offers_ascending (sheet : Stylesheet) : (offers sheet).Pairwise fun a b => a.1 < b.1 := by
  have ascending : sheet.nodes.zipIdx.Pairwise fun a b => a.2 < b.2 := by
    rw [← List.pairwise_map (f := Prod.snd) (R := (· < ·)), List.zipIdx_map_snd]
    exact List.pairwise_lt_range'
  refine ascending.filterMap _ ?_
  intro a b hab a' ha b' hb
  obtain ⟨_, -, rfl⟩ := Option.map_eq_some_iff.1 ha
  obtain ⟨_, -, rfl⟩ := Option.map_eq_some_iff.1 hb
  exact hab

theorem filterMap_offerOf (nodes : List Node) :
    nodes.filterMap offerOf = (nodes.filterMap Node.rule?).filterMap candidate := by
  rw [List.filterMap_filterMap]
  rfl

theorem offers_map_snd (sheet : Stylesheet) :
    (offers sheet).map Prod.snd = sheet.rules.filterMap candidate := by
  have forget : ∀ p : Node × Nat, ((offerOf p.1).map (p.2, ·)).map Prod.snd = offerOf p.1 := by
    intro p
    simp [Option.map_map, Function.comp_def]
  rw [Stylesheet.rules, ← filterMap_offerOf, offers, List.map_filterMap]
  have places : (sheet.nodes.zipIdx.map Prod.fst).filterMap offerOf =
      sheet.nodes.zipIdx.filterMap fun p => offerOf p.1 := List.filterMap_map ..
  rw [List.zipIdx_map_fst] at places
  simp only [forget, places]

/-! ## The groups of a sheet divide its images -/

/-- The groups of a sheet, made of its images at their places. -/
theorem groups_eq_offers (sheet : Stylesheet) :
    groups sheet = ((offers sheet).map (·.2.1)).eraseDups.map fun key =>
      ⟨key, ((offers sheet).filter (·.2.1 == key)).map (·.2.2)⟩ := by
  rw [groups, ← offers_map_snd, gather]
  simp only [List.map_map, List.filter_map]
  rfl

theorem groups_collect (hg : g ∈ groups sheet) : Collects sheet g := by
  rw [groups_eq_offers] at hg
  obtain ⟨key, -, rfl⟩ := List.mem_map.1 hg
  have member : ∀ p ∈ (offers sheet).filter (·.2.1 == key), Offers sheet p.1 key p.2.2 := by
    rintro ⟨k, key', ref⟩ hp
    obtain ⟨hmem, hkey⟩ := List.mem_filter.1 hp
    obtain rfl : key' = key := by simpa using hkey
    exact mem_offers_iff.1 hmem
  refine ⟨((offers sheet).filter (·.2.1 == key)).map (·.1), ?_, ?_, ?_⟩
  · exact List.pairwise_map.2 ((offers_ascending sheet).filter _)
  · intro k
    constructor
    · intro hk
      obtain ⟨p, hp, rfl⟩ := List.mem_map.1 hk
      exact ⟨p.2.2, member p hp⟩
    · rintro ⟨ref, h⟩
      exact List.mem_map.2 ⟨(k, key, ref), List.mem_filter.2 ⟨mem_offers_iff.2 h, by simp⟩, rfl⟩
  · rw [List.forall₂_map_left_iff, List.forall₂_map_right_iff, List.forall₂_same]
    exact member

theorem groups_ordered (sheet : Stylesheet) : (groups sheet).Pairwise (Precedes sheet) := by
  rw [groups_eq_offers, List.pairwise_map]
  refine (classes_ordered (·.2.1) (offers_ascending sheet)).imp ?_
  rintro a b ⟨⟨k, key, ref⟩, hmem, rfl, hbefore⟩
  refine ⟨k, ref, mem_offers_iff.1 hmem, ?_⟩
  intro k' ref' h
  exact hbefore (k', b, ref') (mem_offers_iff.2 h) rfl

theorem groups_each (sheet : Stylesheet) : ((groups sheet).flatMap Group.members).Perm
    (sheet.rules.filterMap fun r => (findImage r).filter (isEligible r)) := by
  have images : (sheet.rules.filterMap candidate).map Prod.snd =
      sheet.rules.filterMap fun r => (findImage r).filter (isEligible r) := by
    rw [List.map_filterMap]
    congr 1
    funext r
    simp [candidate, Option.map_map, Function.comp_def]
  rw [← images, ← offers_map_snd, List.map_map, groups_eq_offers, List.flatMap_map]
  have classes := (flatMap_classes_perm (·.2.1) (offers sheet)).map fun p => p.2.2
  rwa [List.map_flatMap] at classes

theorem groups_partitions (sheet : Stylesheet) : Partitions sheet (groups sheet) := by
  refine ⟨groups_each sheet, ?_, fun g hg => groups_collect hg, gather_keys_nodup _, ?_,
    groups_ordered sheet⟩
  · rintro k key ref ⟨r, hr, h⟩
    have hrule := Stylesheet.mem_rules_of_getElem? hr
    obtain ⟨g, hg, hkey, -⟩ := mem_groups_iff.2 ⟨r, hrule, candidate_eq_some_iff.2 h⟩
    exact ⟨g, hg, hkey⟩
  · intro g hg hnil
    obtain ⟨key, hkey, rfl⟩ := List.mem_map.1 hg
    obtain ⟨p, hp, rfl⟩ := List.mem_map.1 (List.mem_eraseDups.1 hkey)
    exact List.ne_nil_of_mem ((mem_gather_members hg).2 hp) hnil

/-! ## Nothing else does -/

theorem Offers.ref_eq (h : Offers sheet k key ref) (h' : Offers sheet k key ref') : ref = ref' := by
  obtain ⟨r, hr, hfound, -⟩ := h
  obtain ⟨r', hr', hfound', -⟩ := h'
  cases hr.symm.trans hr'
  exact Option.some.inj (hfound.symm.trans hfound')

/-- The members of a group are decided by its key. -/
theorem Collects.unique (h : Collects sheet g) (h' : Collects sheet g') (hkey : g.key = g'.key) :
    g = g' := by
  obtain ⟨key, members⟩ := g
  obtain ⟨key', members'⟩ := g'
  obtain rfl : key = key' := hkey
  obtain ⟨places, hasc, hplaces, hmembers⟩ := h
  obtain ⟨places', hasc', hplaces', hmembers'⟩ := h'
  have same : places = places' := by
    have perm : places.Perm places' :=
      (List.perm_ext_iff_of_nodup (hasc.imp Nat.ne_of_lt) (hasc'.imp Nat.ne_of_lt)).2 fun k =>
        (hplaces k).trans (hplaces' k).symm
    exact perm.eq_of_pairwise (fun a b _ _ hab hba => absurd hab (Nat.lt_asymm hba)) hasc hasc'
  subst same
  have functional : Relator.RightUnique fun k ref => Offers sheet k key ref :=
    fun _ _ _ h h' => h.ref_eq h'
  exact congrArg (Group.mk key) (List.right_unique_forall₂' functional hmembers hmembers')

theorem Precedes.asymm (h : Precedes sheet g g') (h' : Precedes sheet g' g) : False := by
  obtain ⟨k, ref, hk, hbefore⟩ := h
  obtain ⟨k', ref', hk', hbefore'⟩ := h'
  exact Nat.lt_asymm (hbefore k' ref' hk') (hbefore' k ref hk)

theorem Partitions.nodup (h : Partitions sheet gs) : gs.Nodup := .of_map Group.key h.keys

theorem Partitions.subset (h : Partitions sheet gs) (h' : Partitions sheet gs') :
    ∀ g ∈ gs, g ∈ gs' := by
  intro g hg
  obtain ⟨places, -, hplaces, hmembers⟩ := h.collects g hg
  obtain ⟨k, hk⟩ : ∃ k, k ∈ places := by
    refine List.exists_mem_of_ne_nil places ?_
    rintro rfl
    exact h.nonempty g hg (List.forall₂_nil_left_iff.1 hmembers)
  obtain ⟨ref, hoffer⟩ := (hplaces k).1 hk
  obtain ⟨g', hg', hkey⟩ := h'.covers k g.key ref hoffer
  exact (h.collects g hg).unique (h'.collects g' hg') hkey.symm ▸ hg'

/-- Only the groups of a sheet divide its images. -/
theorem Partitions.unique (h : Partitions sheet gs) (h' : Partitions sheet gs') : gs = gs' := by
  have perm : gs.Perm gs' := (List.perm_ext_iff_of_nodup h.nodup h'.nodup).2 fun g =>
    ⟨h.subset h' g, h'.subset h g⟩
  exact perm.eq_of_pairwise (fun _ _ _ _ hab hba => (hab.asymm hba).elim) h.ordered h'.ordered

/-! ## What has no part in it -/

/-- A reference without ids. -/
def Reference.bare (ref : Reference) : Reference := { ref with ruleId := 0, declarationId := 0 }

/-- A group whose members are without ids. -/
def Group.bare (g : Group) : Group := { g with members := g.members.map Reference.bare }

/-- Whether a node is a rule with an image that may go into a sprite sheet. -/
def takesPart : Node → Bool
  | .rule r => ((findImage r).filter (isEligible r)).isSome
  | _ => false

theorem takesPart_eq (n : Node) : takesPart n = (offerOf n).isSome := by
  cases n <;> simp [takesPart, offerOf, Node.rule?, candidate]

theorem decideImage_bare (ds : List Declaration) :
    decideImage (ds.map fun d => { d with id := 0 }) =
      (decideImage ds).map fun p => ({ p.1 with id := 0 }, p.2) := by
  induction ds with
  | nil => rfl
  | cons d ds ih =>
    simp only [List.map_cons, decideImage]
    cases verdict d.value.toList with
    | silent => exact ih
    | leave => rfl
    | image url => rfl

theorem filter_sets_bare (properties : List String) (r : Rule) :
    r.bare.declarations.filter (sets properties) =
      (r.declarations.filter (sets properties)).map fun d => { d with id := 0 } := by
  rw [declarations_bare, List.filter_map]
  rfl

theorem findImage_bare (r : Rule) : findImage r.bare = (findImage r).map Reference.bare := by
  rw [findImage, filter_sets_bare, ← List.map_reverse, decideImage_bare, findImage, Option.map_map,
    Option.map_map]
  rfl

theorem repeatMode_bare (r : Rule) : repeatMode r.bare = repeatMode r := by
  rw [repeatMode, filter_sets_bare, ← List.map_reverse, List.findSome?_map]
  rfl

theorem isPositioned_bare (r : Rule) : isPositioned r.bare = isPositioned r := by
  rw [isPositioned, Rule.hasProperty, declarations_bare, List.any_map]
  rfl

/-- Ids decide nothing. -/
theorem candidate_bare (r : Rule) :
    candidate r.bare = (candidate r).map fun p => (p.1, p.2.bare) := by
  have eligible : isEligible r.bare ∘ Reference.bare = isEligible r := by
    funext ref
    simp only [Function.comp_apply, isEligible, isPositioned_bare]
    rfl
  rw [candidate, findImage_bare, Option.filter_map, eligible, candidate, Option.map_map,
    Option.map_map, repeatMode_bare]
  rfl

theorem offerOf_bare (n : Node) : offerOf n.bare = (offerOf n).map fun p => (p.1, p.2.bare) := by
  cases n with
  | rule r => exact candidate_bare r
  | comment c => rfl
  | atRule a => rfl

theorem gather_bare (refs : List (GroupKey × Reference)) :
    (gather refs).map Group.bare = gather (refs.map fun p => (p.1, p.2.bare)) := by
  simp only [gather, List.map_map, List.filter_map, Function.comp_def, Group.bare]

/-- The groups of a sheet are those of the rules that take part, in their order, whatever
their ids are. -/
theorem groups_bare_eq (sheet : Stylesheet) : (groups sheet).map Group.bare =
    gather (((sheet.nodes.filter takesPart).map Node.bare).filterMap offerOf) := by
  have kept : (sheet.nodes.filter takesPart).filterMap offerOf = sheet.nodes.filterMap offerOf := by
    rw [List.filterMap_filter]
    apply List.filterMap_congr
    intro n _
    rw [takesPart_eq]
    cases offerOf n <;> rfl
  rw [groups, gather_bare, Stylesheet.rules, ← filterMap_offerOf, ← kept, List.map_filterMap,
    List.filterMap_map]
  simp only [Function.comp_def, offerOf_bare]

/-- Rules that take part make the same groups among whatever other nodes. -/
theorem groups_bare_congr (h : (sheet.nodes.filter takesPart).map Node.bare =
      (sheet'.nodes.filter takesPart).map Node.bare) :
    (groups sheet).map Group.bare = (groups sheet').map Group.bare := by
  rw [groups_bare_eq, groups_bare_eq, h]

theorem takesPart_bare (n : Node) : takesPart n.bare = takesPart n := by
  rw [takesPart_eq, takesPart_eq, offerOf_bare, Option.isSome_map]

theorem filter_takesPart_ofNodes (nodes : List Node) :
    ((Stylesheet.ofNodes nodes).nodes.filter takesPart).map Node.bare =
      (nodes.filter takesPart).map Node.bare := by
  have commutes (nodes : List Node) :
      (nodes.filter takesPart).map Node.bare = (nodes.map Node.bare).filter takesPart := by
    rw [List.filter_map]
    congr 2
    funext n
    exact (takesPart_bare n).symm
  rw [commutes, commutes]
  exact congrArg (List.filter takesPart) (numberNodes_bare _ nodes)

/-- **Groups divide the images of a sheet.** The members of all groups are the images that may
go into sprite sheets, each once.  A group has a member, and its members are all images of its
density and repeat mode in the order of the sheet; no two groups have the same, and groups
come in the order of their first members.  Only the groups of a sheet are such.  Nodes that
are no rules with such an image may come and go: they change the ids in a group at most. -/
theorem groups_partition (sheet : Stylesheet) :
    (∀ gs, Partitions sheet gs ↔ gs = groups sheet) ∧
    (∀ sheet' : Stylesheet, (sheet.nodes.filter takesPart).map Node.bare =
        (sheet'.nodes.filter takesPart).map Node.bare →
      (groups sheet).map Group.bare = (groups sheet').map Group.bare) ∧
    ∀ before added after : List Node, (∀ n ∈ added, takesPart n = false) →
      (groups (.ofNodes (before ++ added ++ after))).map Group.bare =
        (groups (.ofNodes (before ++ after))).map Group.bare := by
  refine ⟨fun gs => ⟨fun h => h.unique (groups_partitions sheet), ?_⟩,
    fun sheet' h => groups_bare_congr h, ?_⟩
  · rintro rfl
    exact groups_partitions sheet
  · intro before added after hadded
    have none : added.filter takesPart = [] :=
      List.filter_eq_nil_iff.2 fun n hn => by simp [hadded n hn]
    apply groups_bare_congr
    rw [filter_takesPart_ofNodes, filter_takesPart_ofNodes]
    simp only [List.filter_append, none, List.append_nil]

/-- A rule that shows an image. -/
def showing (selector value : String) : Node :=
  .rule { selectors := [selector], body := [.declaration { property := "background", value }] }

/-- An image with its own repeat mode stands between two of one group, and then a comment too. -/
theorem groups_partition_interleaved :
    let a := showing "a" "url(a.png)"
    let b := showing "b" "url(b.png) repeat-x"
    let c := showing "c" "url(c.png)"
    let note := Node.comment { text := "c" }
    let sheet := Stylesheet.ofNodes [a, b, c]
    let noted := Stylesheet.ofNodes [a, note, b, c]
    Partitions sheet [⟨⟨.single, .once⟩, [⟨"a.png", 1, 2, ["a"]⟩, ⟨"c.png", 5, 6, ["c"]⟩]⟩,
      ⟨⟨.single, .horizontal⟩, [⟨"b.png", 3, 4, ["b"]⟩]⟩] ∧
    (sheet.nodes.filter takesPart).map Node.bare = (noted.nodes.filter takesPart).map Node.bare ∧
    (groups sheet).map Group.bare = (groups noted).map Group.bare ∧
    (∀ n ∈ [note], takesPart n = false) ∧
    (groups (.ofNodes ([a] ++ [note] ++ [b, c]))).map Group.bare =
      (groups (.ofNodes ([a] ++ [b, c]))).map Group.bare := by
  intro a b c note sheet noted
  obtain ⟨divides, congruent, inserted⟩ := groups_partition sheet
  have same : (sheet.nodes.filter takesPart).map Node.bare =
      (noted.nodes.filter takesPart).map Node.bare := by decide +kernel
  have apart : ∀ n ∈ [note], takesPart n = false := by decide
  exact ⟨(divides _).2 (by decide +kernel), same, congruent noted same, apart,
    inserted [a] [note] [b, c] apart⟩

end Spriting.Background

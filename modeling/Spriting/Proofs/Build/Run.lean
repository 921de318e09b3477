import Spriting.Build.Process
import Spriting.Proofs.Background.Holding
import Spriting.Proofs.Sprite.Faithful

/-!
# Runs of a build

What one group does to a build that goes on after it, and from it what all
groups do.  A group changes the rules of its own members, so what it has made of
them lasts to the end.

* `buildGroup_ends`: how building a group can end, and what it leaves in each case;
* `buildGroups_keeps`, `buildGroups_invariant`: what every group keeps, all groups keep;
* `buildGroups_eq_error`: a run that fails has failed at one group after others that did not;
* `buildGroups_frame`: what belongs to no member of any group stays as it is;
* `buildGroups_points`: the rule of a member ends up pointing into the sprite sheet of its
  group.
-/

namespace Spriting.Build

open Background Css Emission Files Layout Sprite

variable {σ : Type} [FileSink σ] {site : Site σ} {p q last : Progress} {g : Group} {gs : List Group}

/-! ## One group -/

/-- What has come of a build when the sprite sheet of `g` has been emitted and its members
have been placed, or as many of them as could be. -/
def afterPlacing (site : Site σ) (g : Group) (p : Progress) (sprite : SpriteFile)
    (storage : Storage) (url : String) : Progress :=
  let placed := placeGroup p.sheet g.members sprite.map url site.resolve
  { p.report (packedReports g sprite) with storage, sheet := placed.sheet }.report
    (emittedReports url sprite.content placed.skipped)

/-- How building `g` can end. -/
inductive Ends (site : Site σ) (g : Group) (p : Progress) :
    Progress × Except BuildError Unit → Prop where
  | unpacked {cause : PackError} :
    packGroup site p.storage.tree g = .error cause → Ends site g p (p, .error (.pack cause))
  | unemitted {sprite : SpriteFile} {storage : Storage} {cause : EmitError} :
    packGroup site p.storage.tree g = .ok sprite →
    site.settings.emitter.emit site.sink p.storage sprite.content =
      (storage, .error cause) →
    Ends site g p ({ p.report (packedReports g sprite) with storage }, .error (.emit cause))
  | unplaced {sprite : SpriteFile} {storage : Storage} {url : String} {cause : Dangling} :
    packGroup site p.storage.tree g = .ok sprite →
    site.settings.emitter.emit site.sink p.storage sprite.content = (storage, .ok url) →
    (placeGroup p.sheet g.members sprite.map url site.resolve).result = .error cause →
    Ends site g p (afterPlacing site g p sprite storage url, .error (.place cause))
  | built {sprite : SpriteFile} {storage : Storage} {url : String} {rule : Option Rule} :
    packGroup site p.storage.tree g = .ok sprite →
    site.settings.emitter.emit site.sink p.storage sprite.content = (storage, .ok url) →
    (placeGroup p.sheet g.members sprite.map url site.resolve).result = .ok rule →
    Ends site g p
      ({ afterPlacing site g p sprite storage url with
          made := p.made ++ [({ group := g, sprite, url, rule } : Made)] }.report
          (placedReports url rule), .ok ())

theorem buildGroup_ends (site : Site σ) (g : Group) (p : Progress) :
    Ends site g p (buildGroup site g p) := by
  unfold buildGroup
  cases hpack : packGroup site p.storage.tree g with
  | error cause => exact .unpacked hpack
  | ok sprite =>
    simp only
    split
    · rename_i storage cause hemit
      exact .unemitted hpack hemit
    · rename_i storage url hemit
      cases hresult : (placeGroup p.sheet g.members sprite.map url site.resolve).result with
      | error cause => exact .unplaced hpack hemit hresult
      | ok rule => exact .built hpack hemit hresult

/-- Building `g` takes a build from `p` to `q` and makes `made`. -/
structure Built (site : Site σ) (g : Group) (p q : Progress) (made : Made) : Prop where
  group : made.group = g
  packed : packGroup site p.storage.tree g = .ok made.sprite
  emitted : site.settings.emitter.emit site.sink p.storage made.sprite.content =
    (q.storage, .ok made.url)
  rule : (placeGroup p.sheet g.members made.sprite.map made.url site.resolve).result =
    .ok made.rule
  placed : Places made.sprite.map site.resolve p.sheet g.members q.sheet
  made_eq : q.made = p.made ++ [made]

theorem built_of_buildGroup (h : buildGroup site g p = (q, .ok ())) :
    ∃ made, Built site g p q made := by
  have ends := buildGroup_ends site g p
  rw [h] at ends
  cases ends with
  | @built sprite storage url rule hpack hemit hresult =>
    exact ⟨⟨g, sprite, url, rule⟩, rfl, hpack, hemit, hresult, places_of_placeGroup hresult, rfl⟩

/-- Every member of a group has a box in its sprite sheet. -/
theorem exists_box {σ : Type} {site : Site σ} {tree : FileTree} {sprite : SpriteFile}
    {ref : Reference}
    (h : packGroup site tree g = .ok sprite) (href : ref ∈ g.members) :
    ∃ box, sprite.map.placements.lookup (site.resolve ref.url) = some box := by
  have hkey : site.resolve ref.url ∈ sprite.placements.map Prod.fst := by
    rw [paths_of_pack h, List.mem_eraseDups]
    exact List.mem_map.2 ⟨ref, href, rfl⟩
  obtain ⟨entry, hentry, hpath⟩ := List.mem_map.1 hkey
  have found : (sprite.placements.lookup (site.resolve ref.url)).isSome = true :=
    List.lookup_isSome_iff.2 ⟨entry, hentry, by simp [hpath]⟩
  exact Option.isSome_iff_exists.1 found

/-- The box of a member shows the image that was loaded for it. -/
theorem Built.shows {made : Made} {ref : Reference} {box : Box} (h : Built site g p q made)
    (hpad : 0 ≤ site.settings.padding)
    (hbox : made.sprite.map.placements.lookup (site.resolve ref.url) = some box) :
    ∃ image, p.storage.tree.loadImage site.work site.library (site.resolve ref.url) = .ok image ∧
      made.sprite.Shows box image := by
  obtain ⟨before, after, hsplit, -⟩ := List.lookup_eq_some_iff.1 hbox
  have faithful := faithful_of_pack hpad h.packed
  have hmem : (site.resolve ref.url, box) ∈ made.sprite.placements := by
    change _ ∈ made.sprite.map.placements
    rw [hsplit]
    exact List.mem_append_right _ List.mem_cons_self
  exact faithful.shows (site.resolve ref.url, box) hmem

/-! ## Groups one after another -/

theorem buildGroups_cons_ok :
    buildGroups site (g :: gs) p = (last, .ok ()) ↔
      ∃ q, buildGroup site g p = (q, .ok ()) ∧ buildGroups site gs q = (last, .ok ()) := by
  rw [buildGroups]
  split
  · rename_i p' hp
    simp [hp]
  · rename_i failed hfailed
    constructor
    · intro h
      exact (hfailed last h).elim
    · rintro ⟨q, hq, -⟩
      exact (hfailed q hq).elim

theorem buildGroups_append_ok {hs : List Group} :
    buildGroups site (gs ++ hs) p = (last, .ok ()) ↔
      ∃ q, buildGroups site gs p = (q, .ok ()) ∧ buildGroups site hs q = (last, .ok ()) := by
  induction gs generalizing p with
  | nil => simp [buildGroups]
  | cons g gs ih =>
    rw [List.cons_append, buildGroups_cons_ok]
    constructor
    · rintro ⟨p', hg, hrest⟩
      obtain ⟨q, hgs, hhs⟩ := ih.1 hrest
      exact ⟨q, buildGroups_cons_ok.2 ⟨p', hg, hgs⟩, hhs⟩
    · rintro ⟨q, hgs, hhs⟩
      obtain ⟨p', hg, hrest⟩ := buildGroups_cons_ok.1 hgs
      exact ⟨p', hg, ih.2 ⟨q, hrest, hhs⟩⟩

/-- The turn of `g` among `gs` comes when the build that started from `p` has come to `q`. -/
def Turn (site : Site σ) (gs : List Group) (p : Progress) (g : Group) (q : Progress) : Prop :=
  ∃ before after, gs = before ++ g :: after ∧ buildGroups site before p = (q, .ok ())

/-- A run that fails has failed when the turn of some group came. -/
theorem buildGroups_eq_error {cause : BuildError}
    (h : buildGroups site gs p = (last, .error cause)) :
    ∃ g q, Turn site gs p g q ∧ buildGroup site g q = (last, .error cause) := by
  induction gs generalizing p with
  | nil => cases h
  | cons g gs ih =>
    cases hg : buildGroup site g p with
    | mk p' result =>
      rw [buildGroups, hg] at h
      cases result with
      | error cause' => exact ⟨g, p, ⟨[], gs, rfl, rfl⟩, hg.trans h⟩
      | ok u =>
        obtain ⟨g', q, ⟨before, after, hgs, hq⟩, hfail⟩ := ih h
        exact ⟨g', q, ⟨g :: before, after, by rw [hgs, List.cons_append],
          buildGroups_cons_ok.2 ⟨p', hg, hq⟩⟩, hfail⟩

/-- What building any of the groups keeps, a run over them keeps, also one that fails. -/
theorem buildGroups_invariant {P : Progress → Prop}
    (hstep : ∀ g ∈ gs, ∀ p, P p → P (buildGroup site g p).1) (hp : P p) :
    P (buildGroups site gs p).1 := by
  induction gs generalizing p with
  | nil => exact hp
  | cons g gs ih =>
    obtain ⟨hg, hgs⟩ := List.forall_mem_cons.1 hstep
    have hnext := hg p hp
    rw [buildGroups]
    split
    · rename_i p' heq
      rw [heq] at hnext
      exact ih hgs hnext
    · exact hnext

/-- What every group that is built keeps, a run that comes to its end keeps. -/
theorem buildGroups_keeps {P : Progress → Prop} (h : buildGroups site gs p = (last, .ok ()))
    (hstep : ∀ g p q made, Built site g p q made → P p → P q) (hp : P p) : P last := by
  induction gs generalizing p with
  | nil =>
    cases h
    exact hp
  | cons g gs ih =>
    obtain ⟨q, hg, hgs⟩ := buildGroups_cons_ok.1 h
    obtain ⟨made, built⟩ := built_of_buildGroup hg
    exact ih hgs (hstep g p q made built hp)

theorem buildGroups_ruleIds (h : buildGroups site gs p = (last, .ok ())) :
    last.sheet.ruleIds = p.sheet.ruleIds :=
  buildGroups_keeps (P := fun q => q.sheet.ruleIds = p.sheet.ruleIds) h
    (fun _ _ _ _ built hq => built.placed.ruleIds.trans hq) rfl

theorem buildGroups_length (h : buildGroups site gs p = (last, .ok ())) :
    last.sheet.nodes.length = p.sheet.nodes.length :=
  buildGroups_keeps (P := fun q => q.sheet.nodes.length = p.sheet.nodes.length) h
    (fun _ _ _ _ built hq => built.placed.length.trans hq) rfl

theorem buildGroups_numbered (h : buildGroups site gs p = (last, .ok ()))
    (hp : p.sheet.Numbered) : last.sheet.Numbered :=
  buildGroups_keeps (P := fun q => q.sheet.Numbered) h
    (fun _ _ _ _ built hq => built.placed.numbered hq) hp

theorem buildGroups_made (h : buildGroups site gs p = (last, .ok ())) : p.made ⊆ last.made :=
  buildGroups_keeps (P := fun q => p.made ⊆ q.made) h
    (fun _ _ _ _ built hq _ hm => built.made_eq ▸ List.mem_append_left _ (hq hm))
    (fun _ hm => hm)

theorem buildGroups_unnumbered (h : buildGroups site gs p = (last, .ok ()))
    (hp : ∀ r ∈ p.rules, (Node.rule r).Unnumbered) :
    ∀ r ∈ last.rules, (Node.rule r).Unnumbered := by
  refine buildGroups_keeps (P := fun q => ∀ r ∈ q.rules, (Node.rule r).Unnumbered) h ?_ hp
  intro g p q made built hp r hr
  simp only [Progress.rules, built.made_eq, List.filterMap_append, List.mem_append] at hr
  rcases hr with hr | hr
  · exact hp r hr
  · have hrule : made.rule = some r := by simpa using hr
    exact unnumbered_of_placeGroup (hrule ▸ built.rule)

/-- The ids of the rules that groups refer to. -/
def memberIds (gs : List Group) : List Int := gs.flatMap fun g => g.members.map Reference.ruleId

theorem mem_memberIds {i : Int} :
    i ∈ memberIds gs ↔ ∃ g ∈ gs, ∃ ref ∈ g.members, ref.ruleId = i := by
  simp [memberIds]

theorem mem_memberIds_reverse {i : Int} : i ∈ memberIds gs.reverse ↔ i ∈ memberIds gs := by
  simp [memberIds]

theorem memberIds_reverse_nodup {sheet : Stylesheet} (hids : sheet.ruleIds.Nodup) :
    (memberIds (groups sheet).reverse).Nodup :=
  ((List.reverse_perm _).flatMap_right _).nodup_iff.2 (groups_ruleIds_nodup hids)

/-- What belongs to no member of any group stays as it is. -/
theorem buildGroups_frame (h : buildGroups site gs p = (last, .ok ())) {k : Nat}
    (hk : ∀ r, p.sheet.nodes[k]? = some (.rule r) → r.id ∉ memberIds gs) :
    last.sheet.nodes[k]? = p.sheet.nodes[k]? := by
  induction gs generalizing p with
  | nil =>
    cases h
    rfl
  | cons g gs ih =>
    obtain ⟨q, hg, hgs⟩ := buildGroups_cons_ok.1 h
    obtain ⟨made, built⟩ := built_of_buildGroup hg
    have step : q.sheet.nodes[k]? = p.sheet.nodes[k]? :=
      built.placed.frame fun r hr hmem => hk r hr (List.mem_append_left _ hmem)
    rw [ih hgs, step]
    rw [step]
    exact fun r hr hmem => hk r hr (List.mem_append_right _ hmem)

/-- When the turn of its group has come, the rule of a member is made to point into the
sprite sheet of the group, and so it is at the end. -/
theorem buildGroups_points (h : buildGroups site gs p = (last, .ok ()))
    (hids : p.sheet.ruleIds.Nodup) (hmembers : (memberIds gs).Nodup) (hg : g ∈ gs)
    {ref : Reference} {r : Rule} {k : Nat} (href : ref ∈ g.members)
    (hk : p.sheet.nodes[k]? = some (.rule r)) (hbody : (r.body.map BodyItem.id).Nodup)
    (hfound : findImage r = some ref) :
    ∃ q q' made box r', Turn site gs p g q ∧ Built site g q q' made ∧ made ∈ last.made ∧
      made.sprite.map.placements.lookup (site.resolve ref.url) = some box ∧
      last.sheet.nodes[k]? = some (.rule r') ∧ Points made.sprite.map box ref.url r r' := by
  obtain ⟨before, after, rfl⟩ := List.append_of_mem hg
  obtain ⟨q, hbefore, hrest⟩ := buildGroups_append_ok.1 h
  obtain ⟨q', hturn, hafter⟩ := buildGroups_cons_ok.1 hrest
  obtain ⟨made, built⟩ := built_of_buildGroup hturn
  have hid : ref.ruleId = r.id := (findImage_spec hfound).1
  have hmine : r.id ∈ g.members.map Reference.ruleId := hid ▸ List.mem_map_of_mem href
  rw [memberIds, List.flatMap_append, List.flatMap_cons] at hmembers
  obtain ⟨-, hmembers, hbefore_apart⟩ := List.nodup_append.1 hmembers
  obtain ⟨hgroup, -, hafter_apart⟩ := List.nodup_append.1 hmembers
  -- the groups before this one have not touched the rule
  have hreached : q.sheet.nodes[k]? = some (.rule r) := by
    rw [buildGroups_frame hbefore, hk]
    intro r' hr' hmem
    rw [hk] at hr'
    cases hr'
    exact hbefore_apart _ hmem _ (List.mem_append_left _ hmine) rfl
  obtain ⟨box, hbox⟩ := exists_box built.packed href
  have hids_q : q.sheet.ruleIds.Nodup := buildGroups_ruleIds hbefore ▸ hids
  obtain ⟨r', hplaced, hpoints⟩ :=
    built.placed.points hids_q hgroup href hreached hbody hfound hbox
  have same_id : r'.id = r.id := by
    obtain ⟨_, _, _, _, -, -, -, rfl⟩ := hpoints
    rfl
  -- and those after it do not touch it again
  have hlast : last.sheet.nodes[k]? = some (.rule r') := by
    rw [buildGroups_frame hafter, hplaced]
    intro r'' hr'' hmem
    rw [hplaced] at hr''
    cases hr''
    exact hafter_apart _ hmine _ (same_id ▸ hmem) rfl
  have hmade : made ∈ last.made :=
    buildGroups_made hafter (built.made_eq ▸ List.mem_append_right _ List.mem_cons_self)
  exact ⟨q, q', made, box, r', ⟨before, after, rfl, hbefore⟩, built, hmade, hbox, hlast, hpoints⟩

/-! ## The sheet at the end -/

theorem numbered_rules_length (p : Progress) :
    (numberNodes (highestId p.sheet.lastId (p.rules.map .rule)) (p.rules.map .rule)).1.length =
      p.rules.length := by
  rw [numberNodes_length, List.length_map]

/-- The rules in front get ids that the sheet does not have. -/
theorem finished_numbered (h : p.sheet.Numbered)
    (hrules : ∀ r ∈ p.rules, (Node.rule r).Unnumbered) : p.finished.Numbered := by
  have none_given : ∀ i ∈ (p.rules.map Node.rule).flatMap Node.ids, i = 0 := by
    intro i hi
    obtain ⟨n, hn, hi⟩ := List.mem_flatMap.1 hi
    obtain ⟨r, hr, rfl⟩ := List.mem_map.1 hn
    exact hrules r hr i hi
  refine h.prepend ?_ ?_
  · have hgiven : ((p.rules.map Node.rule).flatMap Node.ids).filter (· ≠ 0) = [] :=
      List.filter_eq_nil_iff.2 fun i hi => by simpa using none_given i hi
    rw [hgiven]
    exact List.nodup_nil
  · intro i hi hne
    exact absurd (none_given i hi) hne

/-- The rules that name the sprite sheets stand in front and move all else back. -/
theorem finished_getElem? (p : Progress) (k : Nat) :
    p.finished.nodes[p.rules.length + k]? = p.sheet.nodes[k]? := by
  change (_ ++ p.sheet.nodes)[p.rules.length + k]? = _
  rw [List.getElem?_append_right (by rw [numbered_rules_length]; omega), numbered_rules_length]
  congr 1
  omega

/-! ## Builds of a source -/

variable {storage : Storage} {source resource : String} {sheet : Stylesheet}

/-- A source that asks for sprite sheets is built as the sheet that it is. -/
theorem buildSource_of_parse (hparse : parse source = .ok sheet)
    (henabled : isEnabled sheet = true) :
    buildSource site storage source resource = buildSheet site storage sheet resource := by
  simp [buildSource, hparse, henabled]

/-- A build completes when the run over its groups comes to its end, and else fails with it. -/
theorem process_result (hparse : parse source = .ok sheet) (henabled : isEnabled sheet = true) :
    (process site storage source resource).result =
      (runGroups site storage sheet resource).2.map fun _ =>
        (runGroups site storage sheet resource).1.finished.render site.settings.style := by
  change (buildSource site storage source resource).result = _
  rw [buildSource_of_parse hparse henabled, buildSheet]
  cases runGroups site storage sheet resource with
  | mk p result =>
    cases result with
    | error cause => rfl
    | ok u => rfl

/-- A build leaves its files where its run leaves them. -/
theorem process_storage (hparse : parse source = .ok sheet) (henabled : isEnabled sheet = true) :
    (process site storage source resource).storage =
      (runGroups site storage sheet resource).1.storage := by
  change (buildSource site storage source resource).storage = _
  rw [buildSource_of_parse hparse henabled, buildSheet]
  cases runGroups site storage sheet resource with
  | mk p result =>
    cases result with
    | error cause => rfl
    | ok u => rfl

theorem runGroups_of_process {text : String} (hparse : parse source = .ok sheet)
    (henabled : isEnabled sheet = true)
    (h : (process site storage source resource).result = .ok text) :
    ∃ p, runGroups site storage sheet resource = (p, .ok ()) ∧
      text = p.finished.render site.settings.style := by
  rw [process_result hparse henabled] at h
  cases hrun : runGroups site storage sheet resource with
  | mk p result =>
    rw [hrun] at h
    cases result with
    | error cause => cases h
    | ok u =>
      cases h
      exact ⟨p, rfl, rfl⟩

/-- A build of a sheet fails only if the sheet asks for sprite sheets, and with its run. -/
theorem runGroups_of_process_error {cause : BuildError} (hparse : parse source = .ok sheet)
    (h : (process site storage source resource).result = .error cause) :
    isEnabled sheet = true ∧ ∃ p, runGroups site storage sheet resource = (p, .error cause) ∧
      (process site storage source resource).storage = p.storage := by
  by_cases henabled : isEnabled sheet = true
  · refine ⟨henabled, ?_⟩
    rw [process_storage hparse henabled]
    rw [process_result hparse henabled] at h
    cases hrun : runGroups site storage sheet resource with
    | mk p result =>
      rw [hrun] at h
      cases result with
      | error cause' =>
        cases h
        exact ⟨p, rfl, rfl⟩
      | ok u => cases h
  · change (buildSource site storage source resource).result = .error cause at h
    simp only [buildSource, hparse, if_neg henabled] at h
    cases h

/-- The ends of a build add events and no notices. -/
theorem notice_mem_of_process {n : Notice} (hparse : parse source = .ok sheet)
    (henabled : isEnabled sheet = true)
    (h : Report.notice n ∈ (process site storage source resource).reports) :
    Report.notice n ∈ (runGroups site storage sheet resource).1.reports := by
  simp only [process, buildSource_of_parse hparse henabled, buildSheet] at h
  cases hrun : runGroups site storage sheet resource with
  | mk p result =>
    rw [hrun] at h
    cases result with
    | error cause => simpa using h
    | ok u => simpa using h

end Spriting.Build

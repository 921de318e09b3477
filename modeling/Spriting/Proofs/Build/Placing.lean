import Spriting.Proofs.Background.Holding
import Spriting.Proofs.Build.Sprited

/-!
# Placing never fails in a build

A build looks a member up three times: its box in the sprite sheet by its path, its rule
and its declaration by their ids.  None of these can miss, however many groups have been
placed before.

* `Steady.buildGroup`: a group keeps what the others need to be placed;
* `process_places`: every member of every group is placed, whenever its turn comes.
-/

namespace Spriting.Build

open Background Css Emission Files Layout Sprite

variable {σ : Type} {site : Site σ} {p : Progress} {g : Group} {all gs : List Group}

/-- The sheet holds all references of `all`, and none has been reported as left out. -/
structure Steady (all : List Group) (p : Progress) : Prop where
  holds : ∀ g ∈ all, ∀ ref ∈ g.members, Holds p.sheet ref
  reported : ∀ ref, Report.notice (.unplaced ref) ∉ p.reports

theorem Steady.report {reports : List Report} (h : Steady all p)
    (hnew : ∀ ref, Report.notice (.unplaced ref) ∉ reports) : Steady all (p.report reports) := by
  refine ⟨h.holds, ?_⟩
  intro ref hmem
  rcases List.mem_append.1 hmem with hmem | hmem
  · exact h.reported ref hmem
  · exact hnew ref hmem

theorem unplaced_notMem_packedReports (g : Group) (sprite : SpriteFile) (ref : Reference) :
    Report.notice (.unplaced ref) ∉ packedReports g sprite := by
  simp [packedReports, packedNotice]

theorem unplaced_notMem_emittedReports (url : String) (content : Bytes) (ref : Reference) :
    Report.notice (.unplaced ref) ∉ emittedReports url content [] := by
  simp [emittedReports]

theorem unplaced_notMem_placedReports (url : String) (rule : Option Rule) (ref : Reference) :
    Report.notice (.unplaced ref) ∉ placedReports url rule := by
  simp [placedReports]

/-- When a group has been packed, all its members can be placed. -/
theorem Steady.placeGroup {tree : FileTree} {sprite : SpriteFile} (h : Steady all p)
    (hg : g ∈ all) (hpack : packGroup site tree g = .ok sprite) (url : String) :
    (placeGroup p.sheet g.members sprite.map url site.resolve).skipped = [] ∧
      (placeGroup p.sheet g.members sprite.map url site.resolve).result =
        .ok (if g.members.flatMap Reference.selectors = [] then none
          else some (sheetRule url (g.members.flatMap Reference.selectors))) :=
  placeGroup_of_holds (h.holds g hg) fun _ href => exists_box hpack href

theorem steady_startOf {sheet : Stylesheet} (storage : Storage) (resource : String)
    (hids : sheet.ruleIds.Nodup) :
    Steady (groups sheet) (startOf site storage sheet resource) := by
  refine ⟨fun g hg ref href => holds_of_mem_groups hids hg href, ?_⟩
  intro ref
  simp only [startOf]
  split <;> simp

variable [FileSink σ]

/-- A group that is built, or fails to be, keeps what all the others need. -/
theorem Steady.buildGroup (h : Steady all p) (hg : g ∈ all) :
    Steady all (buildGroup site g p).1 := by
  have ends := buildGroup_ends site g p
  generalize Build.buildGroup site g p = outcome at ends ⊢
  cases ends with
  | unpacked hpack => exact h
  | @unemitted sprite _ _ hpack hemit =>
    have packed := h.report (unplaced_notMem_packedReports g sprite)
    exact ⟨packed.holds, packed.reported⟩
  | @unplaced sprite _ url _ hpack hemit hresult =>
    rw [(h.placeGroup hg hpack url).2] at hresult
    cases hresult
  | @built sprite storage url rule hpack hemit hresult =>
    have packed := h.report (unplaced_notMem_packedReports g sprite)
    have placed : ∀ g' ∈ all, ∀ ref ∈ g'.members,
        Holds (Background.placeGroup p.sheet g.members sprite.map url site.resolve).sheet ref :=
      fun g' hg' ref href => (places_of_placeGroup hresult).holds (h.holds g' hg' ref href)
    refine Steady.report ⟨placed, ?_⟩ (unplaced_notMem_placedReports url rule)
    change ∀ ref, _ ∉ (p.report (packedReports g sprite)).reports ++ emittedReports url _ _
    rw [(h.placeGroup hg hpack url).1]
    exact (packed.report (unplaced_notMem_emittedReports url sprite.content)).reported

theorem Steady.buildGroups (h : Steady all p) (hgs : ∀ g ∈ gs, g ∈ all) :
    Steady all (buildGroups site gs p).1 :=
  buildGroups_invariant (fun g hg _ hp => hp.buildGroup (hgs g hg)) h

/-- A group never fails because one of its members leads nowhere. -/
theorem Steady.buildGroup_ne (h : Steady all p) (hg : g ∈ all) (cause : Dangling) :
    (Build.buildGroup site g p).2 ≠ .error (.place cause) := by
  have ends := buildGroup_ends site g p
  generalize Build.buildGroup site g p = outcome at ends ⊢
  cases ends with
  | unpacked hpack => simp
  | unemitted hpack hemit => simp
  | @unplaced sprite _ url _ hpack hemit hresult =>
    rw [(h.placeGroup hg hpack url).2] at hresult
    cases hresult
  | built hpack hemit hresult => simp

/-- Up to the turn of any group of a sheet, all that is needed to place the groups is there. -/
theorem steady_of_before {storage : Storage} {resource : String} {sheet : Stylesheet}
    {before after : List Group} {q : Progress} (hids : sheet.ruleIds.Nodup)
    (hsplit : (groups sheet).reverse = before ++ after)
    (hrun : buildGroups site before (startOf site storage sheet resource) = (q, .ok ())) :
    Steady (groups sheet) q := by
  have hbefore : ∀ g ∈ before, g ∈ groups sheet := fun g hg =>
    List.mem_reverse.1 (hsplit ▸ List.mem_append_left after hg)
  have steady : Steady (groups sheet)
      (buildGroups site before (startOf site storage sheet resource)).1 :=
    (steady_startOf storage resource hids).buildGroups hbefore
  rwa [hrun] at steady

theorem mem_groups_of_split {sheet : Stylesheet} {before after : List Group}
    (hsplit : (groups sheet).reverse = before ++ g :: after) : g ∈ groups sheet := by
  rw [← List.mem_reverse, hsplit]
  exact List.mem_append_right _ List.mem_cons_self

/-- **Placing never fails in a build.** However many groups of an enabled sheet have been
built, the rule and the declaration of every member of every group are found by their ids.
When the turn of a group has come and it has been packed, every member has a box, none is
skipped and placing succeeds.  So no build fails for a member that leads nowhere, and none
reports that a member was left out. -/
theorem process_places (site : Site σ) (storage : Storage) {source : String} (resource : String)
    {sheet : Stylesheet} (hparse : parse source = .ok sheet) (henabled : isEnabled sheet = true) :
    (∀ before after q, (groups sheet).reverse = before ++ after →
      buildGroups site before (startOf site storage sheet resource) = (q, .ok ()) →
      ∀ g ∈ groups sheet, ∀ ref ∈ g.members, ∃ r d, q.sheet.findRule ref.ruleId = some r ∧
        r.findDeclaration ref.declarationId = some d) ∧
    (∀ g q sprite url,
      Turn site (groups sheet).reverse (startOf site storage sheet resource) g q →
      packGroup site q.storage.tree g = .ok sprite →
      (∀ ref ∈ g.members,
        ∃ box, sprite.map.placements.lookup (site.resolve ref.url) = some box) ∧
      (placeGroup q.sheet g.members sprite.map url site.resolve).skipped = [] ∧
      ∃ rule, (placeGroup q.sheet g.members sprite.map url site.resolve).result = .ok rule) ∧
    (∀ cause, (process site storage source resource).result ≠ .error (.place cause)) ∧
    ∀ ref, Report.notice (.unplaced ref) ∉ (process site storage source resource).reports := by
  have hids := (parse_distinct hparse).ruleIds_nodup
  refine ⟨?_, ?_, ?_, ?_⟩
  · intro before after q hsplit hrun g hg ref href
    exact ((steady_of_before hids hsplit hrun).holds g hg ref href).found
  · rintro g q sprite url ⟨before, after, hsplit, hrun⟩ hpack
    obtain ⟨hskipped, hplaced⟩ :=
      (steady_of_before hids hsplit hrun).placeGroup (mem_groups_of_split hsplit) hpack url
    exact ⟨fun ref href => exists_box hpack href, hskipped, _, hplaced⟩
  · intro cause hfail
    obtain ⟨-, last, hrun, -⟩ := runGroups_of_process_error hparse hfail
    obtain ⟨g, q, ⟨before, after, hsplit, hbefore⟩, hfail⟩ := buildGroups_eq_error hrun
    exact (steady_of_before hids hsplit hbefore).buildGroup_ne (mem_groups_of_split hsplit) cause
      (congrArg Prod.snd hfail)
  · intro ref hmem
    have steady : Steady (groups sheet) (runGroups site storage sheet resource).1 :=
      (steady_startOf storage resource hids).buildGroups fun g hg => List.mem_reverse.1 hg
    exact steady.reported ref (notice_mem_of_process hparse henabled hmem)

/-- The second group of a sheet has been built, and now the turn of the first has come. -/
theorem process_places_two_rules :
    parse twoRules = .ok twoSheet ∧ isEnabled twoSheet = true ∧
    ∃ q sprite, Turn memorySite [barGroup, dotGroup]
        (startOf memorySite twoImages twoSheet "a.css") dotGroup q ∧
      packGroup memorySite q.storage.tree dotGroup = .ok sprite ∧
      (∃ r d, q.sheet.findRule 2 = some r ∧ r.findDeclaration 3 = some d) ∧
      (∃ box, sprite.map.placements.lookup (memorySite.resolve "dot.png") = some box) ∧
      (placeGroup q.sheet dotGroup.members sprite.map "dot" memorySite.resolve).skipped = [] := by
  have hformed : (groups twoSheet).reverse = [barGroup] ++ [dotGroup] := by
    rw [groups_twoSheet]
    rfl
  have hdot : dotGroup ∈ groups twoSheet := by
    rw [groups_twoSheet]
    exact List.mem_cons_self
  obtain ⟨found, placed, -, -⟩ :=
    process_places memorySite twoImages "a.css" parse_twoRules isEnabled_twoSheet
  have completes : (buildGroups memorySite [barGroup]
      (startOf memorySite twoImages twoSheet "a.css")).2 = .ok () := by decide +kernel
  obtain ⟨q, hrun⟩ : ∃ q, buildGroups memorySite [barGroup]
      (startOf memorySite twoImages twoSheet "a.css") = (q, .ok ()) :=
    ⟨_, Prod.ext rfl completes⟩
  have packs : (packGroup memorySite q.storage.tree dotGroup).toOption.isSome = true := by
    have : q = (buildGroups memorySite [barGroup]
        (startOf memorySite twoImages twoSheet "a.css")).1 := by rw [hrun]
    rw [this]
    decide +kernel
  have hturn : Turn memorySite (groups twoSheet).reverse
      (startOf memorySite twoImages twoSheet "a.css") dotGroup q := ⟨_, [], hformed, hrun⟩
  cases hpack : packGroup memorySite q.storage.tree dotGroup with
  | error cause =>
    rw [hpack] at packs
    cases packs
  | ok sprite =>
    obtain ⟨hbox, hskipped, -⟩ := placed dotGroup q sprite "dot" hturn hpack
    rw [hformed] at hturn
    have hfound := found _ _ q hformed hrun dotGroup hdot ⟨"dot.png", 2, 3, ["a"]⟩
      List.mem_cons_self
    have hbox := hbox ⟨"dot.png", 2, 3, ["a"]⟩ List.mem_cons_self
    exact ⟨parse_twoRules, isEnabled_twoSheet, q, sprite, hturn, hpack, hfound, hbox, hskipped⟩

end Spriting.Build

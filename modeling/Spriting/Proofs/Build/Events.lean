import Mathlib.Data.List.Forall2
import Spriting.Proofs.Build.Run

/-!
# What a build tells

A build tells when it starts and how it ends, and in between, group by group, that a group has
been packed, that its sprite sheet has been emitted and that its members have been placed.

* `buildGroup_tells`, `buildGroup_tells_of_error`: what one group tells, and what it tells if it
  fails;
* `buildGroups_tells`: what the groups of a run tell one after another;
* `process_events`: all that a build tells, however it ends.
-/

namespace Spriting.Build

open Background Css Emission Files Sprite

/-- What is told of a group that is built.  A group without a selector is not placed, and what is
placed is found under the URL that was told just before. -/
inductive Told (g : Group) : List Event → Prop where
  | emitted (images width height size : Nat) (url : String) :
    Told g [.groupPacked g.key.ratio.toNat g.key.repeatMode.keyword images width height,
      .spriteEmitted url size]
  | placed (images width height size : Nat) (url : String) (selectors : List String) :
    Told g [.groupPacked g.key.ratio.toNat g.key.repeatMode.keyword images width height,
      .spriteEmitted url size, .groupPlaced url selectors]

/-- How many groups have been placed. -/
def placings (told : List Event) : Nat := told.countP (·.kind = .groupPlaced)

/-- All that is told of the groups `gs` when they are built one after another. -/
def Course (resource : String) (gs : List Group) (told : List Event) : Prop :=
  ∃ blocks, List.Forall₂ Told gs blocks ∧
    told = .groupsFormed resource gs.length :: blocks.flatten ++
      [.completed resource (placings blocks.flatten)]

variable {σ : Type} {site : Site σ} {p q last : Progress} {g : Group}
  {gs : List Group} {cause : BuildError}

theorem Told.between {told : List Event} (h : Told g told) :
    ∀ e ∈ told, e.kind ≠ .skipped ∧ e.kind ≠ .completed := by
  intro e he
  cases h with
  | emitted images width height size url =>
    simp only [List.mem_cons, List.not_mem_nil, or_false] at he
    rcases he with rfl | rfl <;> simp [Event.kind]
  | placed images width height size url selectors =>
    simp only [List.mem_cons, List.not_mem_nil, or_false] at he
    rcases he with rfl | rfl | rfl <;> simp [Event.kind]

theorem placings_append (a b : List Event) : placings (a ++ b) = placings a + placings b :=
  List.countP_append

/-! ## Events among reports -/

theorem eventsOf_append (a b : List Report) : eventsOf (a ++ b) = eventsOf a ++ eventsOf b :=
  List.filterMap_append

theorem eventsOf_packedReports (g : Group) (sprite : SpriteFile) :
    eventsOf (packedReports g sprite) = [packedEvent g sprite] := rfl

theorem eventsOf_emittedReports (url : String) (content : Bytes) (skipped : List Reference) :
    eventsOf (emittedReports url content skipped) = [.spriteEmitted url content.length] := by
  have notices : eventsOf (skipped.map fun ref => .notice (.unplaced ref)) = [] := by
    simp [eventsOf]
  exact congrArg (Event.spriteEmitted url content.length :: ·) notices

theorem eventsOf_placedReports (url : String) (rule : Option Rule) :
    eventsOf (placedReports url rule) =
      rule.toList.map fun r => .groupPlaced url r.selectors := by
  cases rule <;> rfl

theorem eventsOf_startOf (site : Site σ) (storage : Storage) (sheet : Stylesheet)
    (resource : String) :
    eventsOf (startOf site storage sheet resource).reports =
      [.groupsFormed resource (groups sheet).length] := by
  simp only [startOf]
  split <;> rfl

/-! ## One group -/

/-- What is told of a group, and its rule with the members placed. -/
theorem told_of_rule (g : Group) (sprite : SpriteFile) (url : String) (content : Bytes)
    (rule : Option Rule) :
    Told g (packedEvent g sprite :: .spriteEmitted url content.length ::
      rule.toList.map fun r => .groupPlaced url r.selectors) := by
  cases rule with
  | none => exact .emitted _ _ _ _ url
  | some r => exact .placed _ _ _ _ url r.selectors

theorem placings_of_rule (g : Group) (sprite : SpriteFile) (url : String) (content : Bytes)
    (rule : Option Rule) :
    placings (packedEvent g sprite :: .spriteEmitted url content.length ::
      rule.toList.map fun r => .groupPlaced url r.selectors) = rule.toList.length := by
  cases rule <;> rfl

theorem eventsOf_afterPlacing (site : Site σ) (g : Group) (p : Progress)
    (sprite : SpriteFile) (storage : Storage) (url : String) :
    eventsOf (afterPlacing site g p sprite storage url).reports =
      eventsOf p.reports ++
        [packedEvent g sprite, .spriteEmitted url sprite.content.length] := by
  simp only [afterPlacing, Progress.report, eventsOf_append, eventsOf_packedReports,
    eventsOf_emittedReports, List.append_assoc]
  rfl

variable [FileSink σ]

/-- A group that is built tells so, and adds a rule if it tells that it was placed. -/
theorem buildGroup_tells (h : buildGroup site g p = (q, .ok ())) :
    ∃ told, Told g told ∧ eventsOf q.reports = eventsOf p.reports ++ told ∧
      q.rules.length = p.rules.length + placings told := by
  have ends := buildGroup_ends site g p
  rw [h] at ends
  cases ends with
  | @built sprite storage url rule =>
    refine ⟨_, told_of_rule g sprite url sprite.content rule, ?_, ?_⟩
    · simp only [Progress.report, eventsOf_append, eventsOf_placedReports]
      rw [eventsOf_afterPlacing, List.append_assoc]
      rfl
    · rw [placings_of_rule]
      simp only [Progress.rules, Progress.report, List.filterMap_append, List.length_append]
      cases rule <;> rfl

/-- A group that fails has told a part of what it would have told. -/
theorem buildGroup_tells_of_error (h : buildGroup site g p = (q, .error cause)) :
    ∃ told rest, Told g (told ++ rest) ∧ eventsOf q.reports = eventsOf p.reports ++ told := by
  have ends := buildGroup_ends site g p
  rw [h] at ends
  cases ends with
  | unpacked =>
    exact ⟨[], _, .emitted 0 0 0 0 "", (List.append_nil _).symm⟩
  | @unemitted sprite =>
    refine ⟨[packedEvent g sprite], [.spriteEmitted "" 0], .emitted _ _ _ _ _, ?_⟩
    exact (eventsOf_append _ _).trans (by rw [eventsOf_packedReports])
  | @unplaced sprite storage url =>
    exact ⟨_, [], .emitted _ _ _ _ _, eventsOf_afterPlacing site g p sprite storage url⟩

/-! ## Groups one after another -/

theorem buildGroups_tells (h : buildGroups site gs p = (last, .ok ())) :
    ∃ blocks, List.Forall₂ Told gs blocks ∧
      eventsOf last.reports = eventsOf p.reports ++ blocks.flatten ∧
      last.rules.length = p.rules.length + placings blocks.flatten := by
  induction gs generalizing p with
  | nil =>
    cases h
    exact ⟨[], .nil, by simp, rfl⟩
  | cons g gs ih =>
    obtain ⟨q, hg, hgs⟩ := buildGroups_cons_ok.1 h
    obtain ⟨told, htold, hevents, hrules⟩ := buildGroup_tells hg
    obtain ⟨blocks, hblocks, hmore, hall⟩ := ih hgs
    refine ⟨told :: blocks, .cons htold hblocks, ?_, ?_⟩
    · rw [hmore, hevents, List.flatten_cons, List.append_assoc]
    · rw [hall, hrules, List.flatten_cons, placings_append]
      omega

/-- Any groups can be told of. -/
theorem exists_told (gs : List Group) : ∃ blocks, List.Forall₂ Told gs blocks := by
  induction gs with
  | nil => exact ⟨[], .nil⟩
  | cons g gs ih =>
    obtain ⟨blocks, hblocks⟩ := ih
    exact ⟨_, .cons (.emitted 0 0 0 0 "") hblocks⟩

theorem between_of_blocks {blocks : List (List Event)} (h : List.Forall₂ Told gs blocks) :
    ∀ e ∈ blocks.flatten, e.kind ≠ .skipped ∧ e.kind ≠ .completed := by
  induction h with
  | nil => simp
  | cons htold _ ih =>
    intro e he
    rcases List.mem_append.1 he with he | he
    · exact htold.between e he
    · exact ih e he

/-- `told` breaks off what a build of `gs` tells. -/
structure BreaksOff (resource : String) (gs : List Group) (told : List Event) : Prop where
  /-- It could have gone on. -/
  goes_on : ∃ whole, Course resource gs whole ∧ told <+: whole ∧ told ≠ whole
  between : ∀ e ∈ told, e.kind ≠ .skipped ∧ e.kind ≠ .completed

/-- A run that fails breaks off what its groups tell. -/
theorem buildGroups_breaksOff {resource : String} (hfail : buildGroups site gs p = (last, .error cause))
    (hp : eventsOf p.reports = [.groupsFormed resource gs.length]) :
    BreaksOff resource gs (eventsOf last.reports) := by
  obtain ⟨g, q, ⟨before, after, rfl, hbefore⟩, hg⟩ := buildGroups_eq_error hfail
  obtain ⟨blocks, hblocks, hevents, -⟩ := buildGroups_tells hbefore
  obtain ⟨told, rest, htold, hlast⟩ := buildGroup_tells_of_error hg
  obtain ⟨more, hmore⟩ := exists_told after
  have all : List.Forall₂ Told (before ++ g :: after) (blocks ++ (told ++ rest) :: more) :=
    List.rel_append hblocks (.cons htold hmore)
  rw [hevents, hp] at hlast
  constructor
  · refine ⟨_, ⟨_, all, rfl⟩, ?_, ?_⟩
    · rw [hlast]
      simp
    · intro same
      have := congrArg List.length same
      rw [hlast] at this
      simp at this
  · intro e he
    rw [hlast] at he
    simp only [List.mem_append, List.mem_singleton] at he
    rcases he with (rfl | he) | he
    · simp [Event.kind]
    · exact between_of_blocks hblocks e he
    · exact htold.between e (List.mem_append_left rest he)

/-! ## Builds of a source -/

variable {storage storage' : Storage} {source resource : String} {reports : List Report}

/-- A build that completes only tells before it that it starts. -/
theorem eventsOf_process_ok {text : String}
    (h : buildSource site storage source resource = ⟨.ok text, reports, storage'⟩) :
    (process site storage source resource).result = .ok text ∧
      eventsOf (process site storage source resource).reports =
        .started resource :: eventsOf reports := by
  constructor
  · rw [process, h]
  · simp only [process, h, List.append_nil]
    rfl

/-- A build that fails tells at its end why it failed. -/
theorem eventsOf_process_error
    (h : buildSource site storage source resource = ⟨.error cause, reports, storage'⟩) :
    (process site storage source resource).result = .error cause ∧
      eventsOf (process site storage source resource).reports =
        .started resource :: eventsOf reports ++ [.failed resource cause.message] := by
  constructor
  · rw [process, h]
  · simp only [process, h]
    exact eventsOf_append (.event (.started resource) :: reports) _

/-- **All that a build tells.** Every build first tells that it starts.  If the sheet does not
ask for sprite sheets, the build then tells that it is skipped and answers the source.  If the
build completes, it tells how many groups there are, then of each group, the last one first,
that it was packed, that it was emitted and, if it has a selector, that it was placed, and then
that it completed and how many groups were placed.  And if it fails, it breaks this off before
the end and tells why it failed. -/
theorem process_events (site : Site σ) (storage : Storage) (source resource : String) :
    (∃ sheet, parse source = .ok sheet ∧ isEnabled sheet = false ∧
      (process site storage source resource).result = .ok source ∧
      eventsOf (process site storage source resource).reports =
        [.started resource, .skipped resource]) ∨
    (∃ sheet text told, parse source = .ok sheet ∧ isEnabled sheet = true ∧
      (process site storage source resource).result = .ok text ∧
      Course resource (groups sheet).reverse told ∧
      eventsOf (process site storage source resource).reports = .started resource :: told) ∨
    (∃ cause told, (process site storage source resource).result = .error cause ∧
      ((∃ e, parse source = .error e ∧ told = []) ∨
        ∃ sheet, parse source = .ok sheet ∧ BreaksOff resource (groups sheet).reverse told) ∧
      eventsOf (process site storage source resource).reports =
        .started resource :: told ++ [.failed resource cause.message]) := by
  cases hparse : parse source with
  | error e =>
    right; right
    have failed : buildSource site storage source resource = ⟨.error (.parse e), [], storage⟩ := by
      simp [buildSource, hparse]
    obtain ⟨hresult, hevents⟩ := eventsOf_process_error failed
    exact ⟨.parse e, [], hresult, .inl ⟨e, rfl, rfl⟩, hevents⟩
  | ok sheet =>
    by_cases henabled : isEnabled sheet = true
    · right
      have start := eventsOf_startOf site storage sheet resource
      rw [← List.length_reverse] at start
      have built : buildSource site storage source resource =
          buildSheet site storage sheet resource :=
        buildSource_of_parse hparse henabled
      rw [buildSheet] at built
      cases hrun : runGroups site storage sheet resource with
      | mk p result =>
        rw [hrun] at built
        cases result with
        | error cause =>
          right
          obtain ⟨hresult, hevents⟩ := eventsOf_process_error built
          exact ⟨cause, _, hresult, .inr ⟨sheet, rfl, buildGroups_breaksOff hrun start⟩, hevents⟩
        | ok u =>
          left
          obtain ⟨hresult, hevents⟩ := eventsOf_process_ok built
          obtain ⟨blocks, hblocks, hrun_events, hrules⟩ := buildGroups_tells hrun
          have count : p.rules.length = placings blocks.flatten := by
            rw [hrules]
            exact Nat.zero_add _
          rw [start] at hrun_events
          refine ⟨sheet, _, _, rfl, henabled, hresult, ⟨blocks, hblocks, rfl⟩, ?_⟩
          rw [hevents, eventsOf_append, hrun_events, count]
          rfl
    · left
      have skipped : buildSource site storage source resource =
          ⟨.ok source, [.event (.skipped resource)], storage⟩ := by
        simp [buildSource, hparse, henabled]
      obtain ⟨hresult, hevents⟩ := eventsOf_process_ok skipped
      exact ⟨sheet, rfl, by simpa using henabled, hresult, hevents⟩

end Spriting.Build

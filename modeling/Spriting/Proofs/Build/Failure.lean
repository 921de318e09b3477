import Spriting.Proofs.Build.Placing
import Spriting.Proofs.Emission.Writing

/-!
# What a failed build leaves

Sprite sheets are written as they are made, and nothing takes them back.  So a build that
fails at a group leaves the sprite sheets of the groups before it.

* `buildGroups_emits`: what a run writes;
* `process_failure`: where a build can fail, and what it leaves there.
-/

namespace Spriting.Build

open Background Css Emission Files Sprite

variable {σ : Type} [FileSink σ] {site : Site σ} {p q last : Progress} {g : Group}
  {gs : List Group}

/-- What becomes of `storage` when sprite sheets are emitted one after another. -/
def emitAll (site : Site σ) (storage : Storage) (makes : List Made) : Storage :=
  makes.foldl (fun s made => (site.settings.emitter.emit site.sink s made.sprite.content).1)
    storage

/-- A run writes the sprite sheets that it makes, one of each group, and nothing else. -/
theorem buildGroups_emits (h : buildGroups site gs p = (last, .ok ())) :
    ∃ makes, last.made = p.made ++ makes ∧ makes.map (·.group) = gs ∧
      last.storage = emitAll site p.storage makes := by
  induction gs generalizing p with
  | nil =>
    cases h
    exact ⟨[], by simp, rfl, rfl⟩
  | cons g gs ih =>
    obtain ⟨q, hg, hgs⟩ := buildGroups_cons_ok.1 h
    obtain ⟨made, built⟩ := built_of_buildGroup hg
    obtain ⟨makes, hmade, hgroups, hstorage⟩ := ih hgs
    refine ⟨made :: makes, ?_, ?_, ?_⟩
    · rw [hmade, built.made_eq]
      simp
    · rw [List.map_cons, built.group, hgroups]
    · rw [hstorage, emitAll, emitAll, List.foldl_cons, built.emitted]

/-- How building `g` can fail when its turn has come, and the storage that it leaves. -/
inductive Fails (site : Site σ) (g : Group) (q : Progress) : Storage → BuildError → Prop where
  /-- The images cannot be packed: nothing is written. -/
  | unpacked {cause : PackError} :
    packGroup site q.storage.tree g = .error cause → Fails site g q q.storage (.pack cause)
  /-- The sprite sheet has been packed and cannot be emitted. -/
  | unemitted {sprite : SpriteFile} {storage : Storage} {cause : EmitError} :
    packGroup site q.storage.tree g = .ok sprite →
    site.settings.emitter.Fails site.sink q.storage sprite.content storage cause →
    Fails site g q storage (.emit cause)

theorem Steady.fails {all : List Group} {cause : BuildError} (h : Steady all q) (hg : g ∈ all)
    (hfail : Build.buildGroup site g q = (last, .error cause)) :
    Fails site g q last.storage cause := by
  have ends := buildGroup_ends site g q
  rw [hfail] at ends
  cases ends with
  | unpacked hpack => exact .unpacked hpack
  | unemitted hpack hemit => exact .unemitted hpack (Emitter.fails_of_emit hemit)
  | @unplaced sprite _ url _ hpack hemit hresult =>
    rw [(h.placeGroup hg hpack url).2] at hresult
    cases hresult

/-- **A failed build leaves what was made before it failed.** A source that cannot be parsed
leaves all as it was.  A build that fails later fails at a group whose images cannot be packed
or whose sprite sheet cannot be emitted, and leaves the sprite sheets of the groups before it,
written in their order.  Of the group itself nothing is left if its images cannot be packed or
its sprite sheet gets no name; else there is what the sink leaves of a file that it refuses, and
the whole file if only its URL cannot be told.  A directory sink leaves no more of a file that it
refuses than a front of it in its own place and the directories on the way. -/
theorem process_failure {site : Site σ} {storage : Storage} {source resource : String}
    {cause : BuildError} (h : (process site storage source resource).result = .error cause) :
    ((∃ e, parse source = .error e ∧ cause = .parse e ∧
        (process site storage source resource).storage = storage) ∨
      ∃ sheet before g after q, parse source = .ok sheet ∧ isEnabled sheet = true ∧
        (groups sheet).reverse = before ++ g :: after ∧
        buildGroups site before (startOf site storage sheet resource) = (q, .ok ()) ∧
        q.made.map (·.group) = before ∧ q.storage = emitAll site storage q.made ∧
        Fails site g q (process site storage source resource).storage cause) ∧
    ∀ (sink : Sink) {s s' : Storage} {target : String} {content : Bytes} {refusal : WriteError},
      FileSink.write sink s target content = (s', .error refusal) →
        sink.Spoils s target content s' := by
  refine ⟨?_, fun _ => Sink.spoils_of_error⟩
  cases hparse : parse source with
  | error e =>
    left
    have built : buildSource site storage source resource = ⟨.error (.parse e), [], storage⟩ := by
      simp [buildSource, hparse]
    change (buildSource site storage source resource).result = .error cause at h
    rw [built] at h
    cases h
    exact ⟨e, rfl, rfl, congrArg Outcome.storage built⟩
  | ok sheet =>
    right
    obtain ⟨henabled, last, hrun, hstorage⟩ := runGroups_of_process_error hparse h
    obtain ⟨g, q, ⟨before, after, hsplit, hbefore⟩, hfail⟩ := buildGroups_eq_error hrun
    have steady : Steady (groups sheet) q :=
      steady_of_before (parse_distinct hparse).ruleIds_nodup hsplit hbefore
    obtain ⟨makes, hmade, hgroups, hwritten⟩ := buildGroups_emits hbefore
    obtain rfl : q.made = makes := hmade
    rw [hstorage]
    exact ⟨sheet, before, g, after, q, rfl, henabled, hsplit, hbefore, hgroups, hwritten,
      steady.fails (mem_groups_of_split hsplit) hfail⟩

/-- A directory in which one of the two images is missing. -/
def oneImage : Storage where
  tree := ⟨[(["bar.png"], .image { width := 2, height := 3, pixel := fun _ _ => ⟨5, 6, 7, 8⟩ })]⟩

theorem runGroups_oneImage :
    (runGroups memorySite oneImage twoSheet "a.css").2 =
      .error (.pack (.unreadable "/dot.png" (.file .missing))) ∧
    (runGroups memorySite oneImage twoSheet "a.css").1.storage.held.map Prod.fst =
      ["sprite.cef8953.png"] := by
  have run : (fun run : Progress × Except BuildError Unit =>
      (run.2, run.1.storage.held.map Prod.fst))
      (runGroups memorySite oneImage twoSheet "a.css") =
      (.error (.pack (.unreadable "/dot.png" (.file .missing))), ["sprite.cef8953.png"]) := by
    rw [runGroups_twoSheet]
    decide +kernel
  simpa only [Prod.mk.injEq] using run

theorem process_oneImage :
    (process memorySite oneImage twoRules "a.css").result =
      .error (.pack (.unreadable "/dot.png" (.file .missing))) := by
  rw [process_result parse_twoRules isEnabled_twoSheet, runGroups_oneImage.1]
  rfl

/-- The sprite sheet of the last group has been written when the first group fails. -/
theorem process_failure_two_rules :
    ∃ cause, (process memorySite oneImage twoRules "a.css").result = .error cause ∧
      ∃ before g after q, [barGroup, dotGroup] = before ++ g :: after ∧
        buildGroups memorySite before (startOf memorySite oneImage twoSheet "a.css") =
          (q, .ok ()) ∧
        q.storage = emitAll memorySite oneImage q.made ∧
        Fails memorySite g q (process memorySite oneImage twoRules "a.css").storage cause := by
  refine ⟨_, process_oneImage, ?_⟩
  rcases (process_failure process_oneImage).1 with ⟨e, hparse, -⟩ |
    ⟨sheet, before, g, after, q, hparse, -, hsplit, hrun, -, hwritten, hfails⟩
  · rw [parse_twoRules] at hparse
    cases hparse
  · rw [parse_twoRules] at hparse
    cases hparse
    rw [groups_twoSheet] at hsplit
    exact ⟨before, g, after, q, hsplit, hrun, hwritten, hfails⟩

/-- A build that fails can leave a file in a sink that was empty before. -/
theorem process_failure_leaves_file :
    oneImage.held = [] ∧
    (process memorySite oneImage twoRules "a.css").result =
      .error (.pack (.unreadable "/dot.png" (.file .missing))) ∧
    (process memorySite oneImage twoRules "a.css").storage.held.map Prod.fst =
      ["sprite.cef8953.png"] := by
  refine ⟨rfl, process_oneImage, ?_⟩
  rw [process_storage parse_twoRules isEnabled_twoSheet, runGroups_oneImage.2]

end Spriting.Build

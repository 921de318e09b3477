import Spriting.Proofs.Build.Heads
import Spriting.Proofs.Build.Sprited
import Spriting.Proofs.Emission.Naming

/-!
# Sprite sheets that last to the end of a build

A memory sink keeps one file under a name.  So a sprite sheet is still there at the end of a
build unless one of the same name has been emitted after it, and sprite sheets that differ get
different names as long as their names show their digests.

* `Filed`: what is held under the names of the sprite sheets, in the course of a build;
* `process_keeps`: when every sprite sheet is still there at the end.
-/

namespace Spriting.Build

open Background Css Emission Files Sprite

variable {site : Site} {p q last : Progress} {g : Group} {gs : List Group} {tree : FileTree}
  {made : Made}

/-- A sprite sheet as it is written. -/
def Made.content (made : Made) : Bytes := made.sprite.content

/-- Where the URL of `made` leads, the sink holds `content`. -/
def LeadsTo (e : Emitter) (held : List (String × Bytes)) (made : Made) (content : Bytes) : Prop :=
  ∃ lead out name, e.urlPrefix = .text lead ∧ e.outputPath = .text out ∧
    e.nameOf made.content = .ok name ∧ made.url = lead ++ name ∧
    held.lookup (out ++ name) = some content

/-- So far, the files of the machine are as they were, and where the URL of a sprite sheet
leads, the sink holds one of the same name. -/
structure Filed (site : Site) (files : FileTree) (p : Progress) : Prop where
  tree : p.storage.tree = files
  packed : ∀ made ∈ p.made, packGroup site files made.group = .ok made.sprite
  held : ∀ made ∈ p.made, ∃ other ∈ p.made,
    site.settings.emitter.nameOf made.content = site.settings.emitter.nameOf other.content ∧
    LeadsTo site.settings.emitter p.storage.held made other.content

/-- Building a group keeps the sprite sheets of other names and replaces those of its own. -/
theorem Filed.built (h : Filed site tree p) (hsink : site.sink = .memory)
    (built : Built site g p q made) : Filed site tree q := by
  have emitted := built.emitted
  rw [hsink] at emitted
  obtain ⟨lead, out, name, hlead, hout, hname, hurl, hstorage⟩ := Emitter.emit_memory emitted
  have hmade : made ∈ q.made := built.made_eq ▸ List.mem_append_right _ List.mem_cons_self
  have found (other : String) : q.storage.held.lookup (out ++ other) =
      if other = name then some made.content else p.storage.held.lookup (out ++ other) := by
    rw [hstorage, lookup_hold]
    simp only [String.append_right_inj]
    rfl
  refine ⟨?_, ?_, ?_⟩
  · rw [hstorage, h.tree]
  · intro m hm
    rw [built.made_eq, List.mem_append, List.mem_singleton] at hm
    rcases hm with hm | rfl
    · exact h.packed m hm
    · rw [built.group, ← h.tree]
      exact built.packed
  · intro m hm
    rw [built.made_eq, List.mem_append, List.mem_singleton] at hm
    rcases hm with hm | rfl
    · obtain ⟨other, hother, hsame, lead', out', name', hlead', hout', hname', hurl', hlookup⟩ :=
        h.held m hm
      obtain rfl : out = out' := Config.Value.text.inj (hout.symm.trans hout')
      by_cases hn : name' = name
      · refine ⟨made, hmade, ?_, lead', out, name', hlead', hout, hname', hurl', ?_⟩
        · rw [hname', hn]
          exact hname.symm
        · rw [found, if_pos hn]
      · refine ⟨other, built.made_eq ▸ List.mem_append_left _ hother, hsame, lead', out, name',
          hlead', hout, hname', hurl', ?_⟩
        rw [found, if_neg hn, hlookup]
    · refine ⟨m, hmade, rfl, lead, out, name, hlead, hout, hname, hurl, ?_⟩
      rw [found, if_pos rfl]

theorem runGroups_filed {storage : Storage} {sheet : Stylesheet} {resource : String}
    (hsink : site.sink = .memory)
    (hrun : runGroups site storage sheet resource = (last, .ok ())) :
    Filed site storage.tree last :=
  buildGroups_keeps hrun (fun _ _ _ _ built h => h.built hsink built) ⟨rfl, nofun, nofun⟩

/-- Sprite sheets of one name that are both found are the same. -/
theorem content_eq_of_leadsTo {e : Emitter} {held : List (String × Bytes)} {other : Made}
    (h : LeadsTo e held made made.content) (h' : LeadsTo e held other other.content)
    (hname : e.nameOf made.content = e.nameOf other.content) : made.content = other.content := by
  obtain ⟨_, out, name, -, hout, hmade, -, hlookup⟩ := h
  obtain ⟨_, out', name', -, hout', hother, -, hlookup'⟩ := h'
  obtain rfl : out = out' := Config.Value.text.inj (hout.symm.trans hout')
  rw [hmade, hother] at hname
  obtain rfl : name = name' := Except.ok.inj hname
  exact Option.some.inj (hlookup.symm.trans hlookup')

theorem map_group_of_makes {sheet : Stylesheet} {makes : List Made}
    (h : List.Forall₂ (Makes sheet) gs makes) : makes.map (·.group) = gs := by
  induction h with
  | nil => rfl
  | cons hmakes _ ih => rw [List.map_cons, hmakes.group, ih]

/-- **Sprite sheets last if their names tell them apart.** Whenever a build with a memory sink
completes, and the digest is free of collisions on its sprite sheets, each of them is at the end
held where its URL leads, as it was packed, if the names have a place for the digest.  If they
have none, all sprite sheets get one name, and each is held there only if all are the same. -/
theorem process_keeps (site : Site) (storage : Storage) {source resource text : String}
    {sheet : Stylesheet} (hsink : site.sink = .memory) (hparse : parse source = .ok sheet)
    (henabled : isEnabled sheet = true)
    (h : (process site storage source resource).result = .ok text)
    (hfree : site.settings.emitter.CollisionFree
      ((runGroups site storage sheet resource).1.made.map Made.content)) :
    ∃ p, runGroups site storage sheet resource = (p, .ok ()) ∧
      text = p.finished.render site.settings.style ∧
      List.Forall₂ (Makes sheet) (groups sheet).reverse p.made ∧
      (∀ made ∈ p.made, packGroup site storage.tree made.group = .ok made.sprite) ∧
      ((∀ made ∈ p.made, LeadsTo site.settings.emitter
          (process site storage source resource).storage.held made made.content) ↔
        site.settings.emitter.places ≠ [] ∨
          ∀ made ∈ p.made, ∀ other ∈ p.made, made.content = other.content) := by
  obtain ⟨p, hrun, htext⟩ := runGroups_of_process hparse henabled h
  have hids := (parse_distinct hparse).ruleIds_nodup
  obtain ⟨makes, hmade, hmakes⟩ := (steady_startOf storage resource hids).buildGroups_makes hids
    (fun g hg => List.mem_reverse.1 hg) hrun
  obtain rfl : p.made = makes := hmade
  have filed : Filed site storage.tree p := runGroups_filed hsink hrun
  rw [hrun] at hfree
  rw [process_storage hparse henabled, hrun]
  refine ⟨p, rfl, htext, hmakes, filed.packed, ?_, ?_⟩
  · intro kept
    refine or_iff_not_imp_left.2 fun hplaces made hm other ho => ?_
    -- all names are one, so that only one file can be found
    have hnone : site.settings.emitter.places = [] := not_not.1 hplaces
    refine content_eq_of_leadsTo (kept made hm) (kept other ho) ?_
    obtain ⟨_, _, name, -, -, hname, -⟩ := kept made hm
    obtain ⟨_, _, name', -, -, hname', -⟩ := kept other ho
    rw [hname, hname', Emitter.nameOf_eq_of_placeless hnone hname hname']
  · intro apart made hm
    obtain ⟨other, ho, hname, leads⟩ := filed.held made hm
    have same : made.content = other.content := by
      rcases apart with hplaces | hall
      · obtain ⟨_, _, name, -, -, hmade, -⟩ := leads
        exact hfree hplaces _ (List.mem_map_of_mem hm) _ (List.mem_map_of_mem ho)
          (Emitter.shown_eq hmade (hname ▸ hmade))
      · exact hall made hm other ho
    rw [same]
    exact leads

/-- The sprite sheets of two groups have names of their own. -/
theorem process_keeps_two_rules :
    memorySite.sink = .memory ∧ parse twoRules = .ok twoSheet ∧ isEnabled twoSheet = true ∧
    (∃ text, (process memorySite twoImages twoRules "a.css").result = .ok text) ∧
    memorySite.settings.emitter.CollisionFree
      ((runGroups memorySite twoImages twoSheet "a.css").1.made.map Made.content) ∧
    ∃ p, runGroups memorySite twoImages twoSheet "a.css" = (p, .ok ()) ∧
      p.made.map (·.group) = [barGroup, dotGroup] ∧
      ∀ made ∈ p.made, LeadsTo memorySite.settings.emitter
        (process memorySite twoImages twoRules "a.css").storage.held made made.content := by
  obtain ⟨text, hresult⟩ := process_twoRules
  have hfree : memorySite.settings.emitter.CollisionFree
      ((runGroups memorySite twoImages twoSheet "a.css").1.made.map Made.content) := by
    rw [runGroups_twoSheet]
    decide +kernel
  obtain ⟨p, hrun, -, hmakes, -, hkept⟩ :=
    process_keeps memorySite twoImages rfl parse_twoRules isEnabled_twoSheet hresult hfree
  have hplaces : memorySite.settings.emitter.places ≠ [] := by decide +kernel
  have hgroups : p.made.map (·.group) = [barGroup, dotGroup] := by
    rw [map_group_of_makes hmakes, groups_twoSheet]
    rfl
  exact ⟨rfl, parse_twoRules, isEnabled_twoSheet, ⟨text, hresult⟩, hfree, p, hrun, hgroups,
    hkept.2 (.inl hplaces)⟩

/-- A name that says nothing of the contents. -/
def plainSite : Site :=
  { memorySite with settings := { emitter := { template := .text "sprite.png" } } }

/-- Under such a name a sprite sheet is replaced by the next one, although the first digits of
their digests tell them apart. -/
theorem process_replaces_sprite_sheet :
    plainSite.sink = .memory ∧ parse twoRules = .ok twoSheet ∧ isEnabled twoSheet = true ∧
    (∃ text, (process plainSite twoImages twoRules "a.css").result = .ok text) ∧
    ∃ p, runGroups plainSite twoImages twoSheet "a.css" = (p, .ok ()) ∧
      p.made.map (fun made => (digestOf defaultHashType made.content).map (·.toList.take 1)) =
        [.ok ['c'], .ok ['5']] ∧
      ¬ ∀ made ∈ p.made, LeadsTo plainSite.settings.emitter
        (process plainSite twoImages twoRules "a.css").storage.held made made.content := by
  have run : (fun run : Progress × Except BuildError Unit =>
      (run.2,
        run.1.made.map (fun made => (digestOf defaultHashType made.content).map (·.toList.take 1)),
        run.1.made.any fun made => made.url = "sprite.png" ∧
          run.1.storage.held.lookup "sprite.png" ≠ some made.content))
      (runGroups plainSite twoImages twoSheet "a.css") =
      (.ok (), [.ok ['c'], .ok ['5']], true) := by
    rw [runGroups_twoSheet]
    decide +kernel
  have hresult : (process plainSite twoImages twoRules "a.css").result = _ :=
    process_result parse_twoRules isEnabled_twoSheet
  rw [process_storage parse_twoRules isEnabled_twoSheet]
  cases hrun : runGroups plainSite twoImages twoSheet "a.css" with
  | mk p result =>
    rw [hrun] at run hresult
    simp only [Prod.mk.injEq, List.any_eq_true, decide_eq_true_eq] at run
    obtain ⟨rfl, hdigests, made, hm, hurl, hlost⟩ := run
    refine ⟨rfl, parse_twoRules, isEnabled_twoSheet, ⟨_, hresult⟩, p, rfl, hdigests, ?_⟩
    intro kept
    obtain ⟨lead, out, name, hlead, hout, -, hname, hheld⟩ := kept made hm
    obtain rfl : "" = lead := Config.Value.text.inj hlead
    obtain rfl : "" = out := Config.Value.text.inj hout
    rw [hurl, String.empty_append] at hname
    rw [String.empty_append, ← hname] at hheld
    exact hlost hheld

end Spriting.Build

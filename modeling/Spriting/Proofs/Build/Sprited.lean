import Spriting.Proofs.Build.Run
import Spriting.Proofs.Image.Lossless

/-!
# Built sheets show the images they were written with

From the rule of a sheet to the pixels: its image goes into the sprite sheet of its
group, the file of the sprite sheet is emitted, and the rule ends up showing the box of the
sprite sheet in which that image stands.  Whoever reads that file with a library that loses
nothing sees the sprite sheet.

* `process_sprited`: this holds of every rule of every group whenever a build completes.
-/

namespace Spriting.Build

open Background Css Emission Files Image Layout Sprite

variable {σ : Type} [FileSink σ] {site : Site σ} {p last : Progress} {g : Group}
  {gs : List Group} {ref : Reference} {r : Rule} {k : Nat}

/-- At `q` the group of `made` is packed and emitted, and `r'` shows out of its sprite
sheet what `r` shows by itself: the image that was loaded for `ref`. -/
structure Sprited (site : Site σ) (q : Progress) (made : Made) (ref : Reference) (r r' : Rule) :
    Prop where
  packed : packGroup site q.storage.tree made.group = .ok made.sprite
  encoded : site.library.encode made.sprite.image = .ok made.sprite.content
  emitted : ∃ storage,
    site.settings.emitter.emit site.sink q.storage made.sprite.content =
      (storage, .ok made.url)
  reads : site.library.Lossless → ∀ path image,
    site.library.decode path made.sprite.content = .ok image → image.Same made.sprite.image
  shows : ∃ box image,
    q.storage.tree.loadImage site.work site.library (site.resolve ref.url) = .ok image ∧
      made.sprite.Shows box image ∧ Points made.sprite.map box ref.url r r'

theorem buildGroups_sprited (hpad : 0 ≤ site.settings.padding)
    (h : buildGroups site gs p = (last, .ok ())) (hids : p.sheet.ruleIds.Nodup)
    (hmembers : (memberIds gs).Nodup) (hg : g ∈ gs) (href : ref ∈ g.members)
    (hk : p.sheet.nodes[k]? = some (.rule r)) (hbody : (r.body.map BodyItem.id).Nodup)
    (hfound : findImage r = some ref) :
    ∃ q made r', Turn site gs p g q ∧ made ∈ last.made ∧ made.group = g ∧
      last.sheet.nodes[k]? = some (.rule r') ∧ Sprited site q made ref r r' := by
  obtain ⟨q, _, made, box, r', hturn, built, hmade, hbox, hlast, hpoints⟩ :=
    buildGroups_points h hids hmembers hg href hk hbody hfound
  obtain ⟨image, himage, hshows⟩ := built.shows hpad hbox
  have hencode := encode_of_pack built.packed
  exact ⟨q, made, r', hturn, hmade, built.group, hlast, built.group ▸ built.packed, hencode,
    ⟨_, built.emitted⟩, fun lossless path _ hread => lossless _ _ path _ hencode hread,
    box, image, himage, hshows, hpoints⟩

/-- **Built sheets show their images.** Whenever a build of a sheet that asks for sprite
sheets completes, every rule whose image is in a group has become, in the sheet that is
written, a rule that shows in the emitted sprite sheet of that group the box in which the
image stands pixel for pixel, as it was loaded when the group was packed. -/
theorem process_sprited (site : Site σ) (storage : Storage) {source resource text : String}
    {sheet : Stylesheet} (hpad : 0 ≤ site.settings.padding) (hparse : parse source = .ok sheet)
    (henabled : isEnabled sheet = true)
    (h : (process site storage source resource).result = .ok text) :
    ∃ p, runGroups site storage sheet resource = (p, .ok ()) ∧
      text = p.finished.render site.settings.style ∧
      ∀ k r g ref, sheet.nodes[k]? = some (.rule r) → g ∈ groups sheet → ref ∈ g.members →
        ref.ruleId = r.id →
        ∃ q made r',
          Turn site (groups sheet).reverse (startOf site storage sheet resource) g q ∧
          made ∈ p.made ∧ made.group = g ∧
          p.finished.nodes[p.rules.length + k]? = some (.rule r') ∧
          Sprited site q made ref r r' := by
  obtain ⟨p, hrun, htext⟩ := runGroups_of_process hparse henabled h
  refine ⟨p, hrun, htext, ?_⟩
  intro k r g ref hk hg href hid
  have distinct := parse_distinct hparse
  have hids : sheet.ruleIds.Nodup := distinct.ruleIds_nodup
  -- the rule that the member was found in is the one with its id
  obtain ⟨r', hr', hcandidate⟩ := candidate_of_mem_groups hg href
  have hsame : r' = r :=
    Stylesheet.eq_of_ruleIds_nodup hids hr' (Stylesheet.mem_rules_of_getElem? hk)
      ((candidate_ruleId hcandidate).symm.trans hid)
  have hfound : findImage r = some ref := hsame ▸ (candidate_spec hcandidate).1
  have hmembers : (memberIds (groups sheet).reverse).Nodup :=
    ((List.reverse_perm _).flatMap_right _).nodup_iff.2 (groups_ruleIds_nodup hids)
  obtain ⟨q, made, shown, hturn, hmade, hgroup, hplace, hsprited⟩ :=
    buildGroups_sprited hpad hrun hids hmembers (List.mem_reverse.2 hg) href hk
      (distinct.body_nodup (List.mem_of_getElem? hk)) hfound
  exact ⟨q, made, shown, hturn, hmade, hgroup, (finished_getElem? p k).trans hplace, hsprited⟩

/-- A directory with two images, and a memory to build into. -/
def twoImages : Storage where
  tree := ⟨[(["dot.png"], .image { width := 1, height := 1, pixel := fun _ _ => ⟨1, 2, 3, 4⟩ }),
    (["bar.png"], .image { width := 2, height := 3, pixel := fun _ _ => ⟨5, 6, 7, 8⟩ })]⟩

def memorySite : Site :=
  { settings := {}, sink := .memory, library := .plain, base := ⟨1, []⟩ }

def twoRules : String :=
  "/*sprite-loader-enable*/a\x7bbackground:url(dot.png)\x7db\x7bbackground:url(bar.png) repeat-x\x7d"

def barRule : Rule :=
  { selectors := ["b"], body := [.declaration ⟨"background", "url(bar.png) repeat-x", 5⟩], id := 4 }

def twoSheet : Stylesheet where
  nodes :=
    [.comment { text := "sprite-loader-enable", id := 1 },
     .rule
      { selectors := ["a"], body := [.declaration ⟨"background", "url(dot.png)", 3⟩], id := 2 },
     .rule barRule]
  lastId := 5

theorem parse_twoRules : parse twoRules = .ok twoSheet :=
  parse_of_toList String.toList_ofList (by decide +kernel)

theorem isEnabled_twoSheet : isEnabled twoSheet = true := by decide

def dotGroup : Group := ⟨⟨.single, .once⟩, [⟨"dot.png", 2, 3, ["a"]⟩]⟩

def barGroup : Group := ⟨⟨.single, .horizontal⟩, [⟨"bar.png", 4, 5, ["b"]⟩]⟩

theorem groups_twoSheet : groups twoSheet = [dotGroup, barGroup] := by decide +kernel

theorem runGroups_twoSheet (site : Site σ) (storage : Storage) (resource : String) :
    runGroups site storage twoSheet resource =
      buildGroups site [barGroup, dotGroup] (startOf site storage twoSheet resource) := by
  rw [runGroups, groups_twoSheet]
  rfl

theorem process_twoRules :
    ∃ text, (process memorySite twoImages twoRules "a.css").result = .ok text := by
  have completes : (runGroups memorySite twoImages twoSheet "a.css").2 = .ok () := by
    rw [runGroups_twoSheet]
    decide +kernel
  rw [process_result parse_twoRules isEnabled_twoSheet, completes]
  exact ⟨_, rfl⟩

theorem process_sprited_two_rules :
    0 ≤ memorySite.settings.padding ∧ parse twoRules = .ok twoSheet ∧ isEnabled twoSheet = true ∧
    ∃ text, (process memorySite twoImages twoRules "a.css").result = .ok text ∧
      ∃ (p q : Progress) (made : Made) (r' : Rule), made ∈ p.made ∧
        p.finished.nodes[p.rules.length + 2]? = some (.rule r') ∧
        text = p.finished.render (.pretty "  ") ∧
        Sprited memorySite q made ⟨"bar.png", 4, 5, ["b"]⟩ barRule r' ∧
        ∃ read, Library.plain.decode made.url made.sprite.content = .ok read ∧
          read.Same made.sprite.image := by
  obtain ⟨text, hresult⟩ := process_twoRules
  have hgroup : ⟨⟨.single, .horizontal⟩, [⟨"bar.png", 4, 5, ["b"]⟩]⟩ ∈ groups twoSheet := by
    rw [groups_twoSheet]
    exact List.mem_cons_of_mem _ List.mem_cons_self
  obtain ⟨p, -, htext, shown⟩ :=
    process_sprited memorySite twoImages (by decide) parse_twoRules isEnabled_twoSheet hresult
  obtain ⟨q, made, r', -, hmade, -, hplace, hsprited⟩ :=
    shown 2 barRule _ ⟨"bar.png", 4, 5, ["b"]⟩ rfl hgroup (List.mem_singleton_self _) rfl
  obtain ⟨read, hread, -⟩ := Library.plain_decode made.sprite.image made.url
  have hcontent : made.sprite.image.encode = made.sprite.content := Except.ok.inj hsprited.encoded
  rw [hcontent] at hread
  have same := hsprited.reads Library.plain_lossless made.url read hread
  exact ⟨by decide, parse_twoRules, isEnabled_twoSheet, text, hresult, p, q, made, r', hmade,
    hplace, htext, hsprited, read, hread, same⟩

end Spriting.Build

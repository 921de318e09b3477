import Spriting.Proofs.Build.Heads

/-!
# What a build leaves alone

A finished sheet consists of the rules in front and of all nodes that the sheet had, in
their order.  Of these only the rules of the members have changed, and in each of them
only the declaration of its image and what is added at the end.

* `runGroups_framed`: this is what a run does to the nodes that it finds;
* `process_frame`: and this is the sheet that is written whenever a build completes.
-/

namespace Spriting.Build

open Background Css Emission Files Layout Sprite

/-- What becomes of a node of `sheet` in a build that made what `p` has made. -/
inductive Framed {σ : Type} (site : Site σ) (sheet : Stylesheet) (p : Progress) :
    Node → Node → Prop where
  /-- A node that is no rule of a member is kept. -/
  | kept {n : Node} :
    (∀ r, n = .rule r → r.id ∉ memberIds (groups sheet)) → Framed site sheet p n n
  /-- In the rule of a member, a position takes the place of the declaration of its image,
  and a size comes at the end. -/
  | placed {g : Group} {ref : Reference} {r : Rule} {before after : List BodyItem}
      {d : Declaration} {made : Made} {box : Box} {id : Int} :
    g ∈ groups sheet → ref ∈ g.members → ref.ruleId = r.id → ref.declarationId = d.id →
    r.body = before ++ .declaration d :: after → made ∈ p.made → made.group = g →
    made.sprite.map.placements.lookup (site.resolve ref.url) = some box →
    Framed site sheet p (.rule r) (.rule { r with
      body := before ++ .declaration (positionDeclaration box d.id) :: after ++
        [.declaration (sizeDeclaration made.sprite.map id)] })

variable {σ : Type} [FileSink σ] {site : Site σ} {sheet : Stylesheet} {p : Progress}
  {storage : Storage} {source resource text : String}

/-- The rule of a member has changed in two declarations. -/
theorem runGroups_placed {r : Rule} {n : Node} {k : Nat} (hdistinct : sheet.Distinct)
    (hrun : runGroups site storage sheet resource = (p, .ok ()))
    (hr : sheet.nodes[k]? = some (.rule r)) (hn : p.sheet.nodes[k]? = some n)
    (hmember : r.id ∈ memberIds (groups sheet)) : Framed site sheet p (.rule r) n := by
  have hids := hdistinct.ruleIds_nodup
  obtain ⟨g, hg, ref, href, hid⟩ := mem_memberIds.1 hmember
  have hrule : r ∈ sheet.rules := Stylesheet.mem_rules_of_getElem? hr
  have hfound : findImage r = some ref :=
    (candidate_spec (candidate_of_ruleId hids hrule hg href hid)).1
  have hbody : (r.body.map BodyItem.id).Nodup := hdistinct.body_nodup (List.mem_of_getElem? hr)
  obtain ⟨q, q', made, box, r', -, built, hmade, hbox, hr', hpoints⟩ :=
    buildGroups_points hrun hids (memberIds_reverse_nodup hids) (List.mem_reverse.2 hg) href hr
      hbody hfound
  obtain ⟨d, before, after, id, hdecides, hsplit, -, rfl⟩ := hpoints
  obtain ⟨-, -, d', hdecides', hd⟩ := findImage_spec hfound
  obtain rfl : d' = d := congrArg Prod.fst (Option.some.inj (hdecides'.symm.trans hdecides))
  cases hn.symm.trans hr'
  exact .placed hg href hid hd hsplit hmade built.group hbox

/-- Every node has stayed where it was, and is kept unless it is the rule of a member. -/
theorem runGroups_framed (hdistinct : sheet.Distinct)
    (hrun : runGroups site storage sheet resource = (p, .ok ())) :
    List.Forall₂ (Framed site sheet p) sheet.nodes p.sheet.nodes := by
  refine forall₂_of_getElem? (buildGroups_length hrun) ?_
  intro k n n' hnode hlast
  by_cases hmember : ∃ r, n = .rule r ∧ r.id ∈ memberIds (groups sheet)
  · obtain ⟨r, rfl, hmember⟩ := hmember
    exact runGroups_placed hdistinct hrun hnode hlast hmember
  · have hkept : ∀ r, n = .rule r → r.id ∉ memberIds (groups sheet) :=
      fun r hr hmem => hmember ⟨r, hr, hmem⟩
    have same : p.sheet.nodes[k]? = sheet.nodes[k]? := by
      refine buildGroups_frame hrun ?_
      intro r hr hmem
      cases hnode.symm.trans hr
      exact hkept r rfl (mem_memberIds_reverse.1 hmem)
    rw [hlast, hnode] at same
    cases same
    exact .kept hkept

/-- **The frame of a build.** Whenever a build of a sheet that asks for sprite sheets
completes, the sheet that is written has in front a rule for each group with a selector,
the last group first, that names a sprite sheet of the group for the selectors of its
rules.  Behind them come all nodes of the sheet in their order.  A node that is no rule of
a member is the same as before; in a rule of a member a position has taken the place of the
declaration of its image and a size has been added at the end. -/
theorem process_frame (site : Site σ) (storage : Storage) (hparse : parse source = .ok sheet)
    (henabled : isEnabled sheet = true)
    (h : (process site storage source resource).result = .ok text) :
    ∃ p, runGroups site storage sheet resource = (p, .ok ()) ∧
      text = p.finished.render site.settings.style ∧
      ∃ (front : List Rule) (rest : List Node),
        p.finished.nodes = front.map .rule ++ rest ∧
        List.Forall₂ (Names sheet p) (withSelectors sheet (groups sheet).reverse) front ∧
        List.Forall₂ (Framed site sheet p) sheet.nodes rest := by
  obtain ⟨p, hrun, htext⟩ := runGroups_of_process hparse henabled h
  have hdistinct := parse_distinct hparse
  obtain ⟨front, hnodes, hnames⟩ := runGroups_names hdistinct.ruleIds_nodup hrun
  exact ⟨p, hrun, htext, front, p.sheet.nodes, hnodes, hnames, runGroups_framed hdistinct hrun⟩

theorem withSelectors_twoSheet :
    withSelectors twoSheet (groups twoSheet).reverse = [barGroup, dotGroup] := by
  rw [groups_twoSheet]
  decide

/-- The rule of the later group comes first, and then all that the sheet had. -/
theorem process_frame_two_rules :
    parse twoRules = .ok twoSheet ∧ isEnabled twoSheet = true ∧
    ∃ text, (process memorySite twoImages twoRules "a.css").result = .ok text ∧
      ∃ p r₁ r₂ rest, text = p.finished.render (.pretty "  ") ∧
        p.finished.nodes = .rule r₁ :: .rule r₂ :: rest ∧
        r₁.selectors = ["b"] ∧ r₂.selectors = ["a"] ∧
        List.Forall₂ (Framed memorySite twoSheet p) twoSheet.nodes rest := by
  obtain ⟨text, hresult⟩ := process_twoRules
  obtain ⟨p, -, htext, front, rest, hnodes, hnames, hframed⟩ :=
    process_frame memorySite twoImages parse_twoRules isEnabled_twoSheet hresult
  rw [withSelectors_twoSheet] at hnames
  cases hnames with
  | cons hbar hnames =>
    cases hnames with
    | cons hdot hnames =>
      cases hnames
      refine ⟨parse_twoRules, isEnabled_twoSheet, text, hresult, p, _, _, rest, htext, hnodes,
        ?_, ?_, hframed⟩
      · rw [hbar.selectors]
        decide
      · rw [hdot.selectors]
        decide

end Spriting.Build

import Spriting.Proofs.Background.Placing
import Spriting.Proofs.Css.Freshness

/-!
# References stay good

A sheet holds a reference if its rule and its declaration are found by their ids.
A replaced declaration keeps its id and an appended one comes after all others, so
placing members takes no reference away, neither their own nor those of others.

* `findRule_place`: what a step leaves of the rules by their ids;
* `Leads.place`, `Places.holds`: a step keeps every reference, and so does a run;
* `placeMembers_of_leads`: members that lead to a declaration are placed or skipped;
* `placeMembers_of_holds`: members that the sheet holds have their selectors with them;
* `placeGroup_of_holds`: those that all have a box are all placed;
* `Places.numbered`: no id comes twice when they are.
-/

namespace Spriting.Background

open Css Layout

variable {sprite : SpriteMap} {resolve : String → String} {sheet last : Stylesheet}
  {refs : List Reference} {ref head : Reference}

/-- The rule and the declaration of a reference are found by their ids, and the rule
lists the selectors that it had when the reference was taken. -/
def Holds (sheet : Stylesheet) (ref : Reference) : Prop :=
  ∃ r, sheet.findRule ref.ruleId = some r ∧ r.selectors = ref.selectors ∧
    ref.declarationId ∈ r.declarations.map Declaration.id

/-- The rule and the declaration of a reference are found by their ids. -/
def Leads (sheet : Stylesheet) (ref : Reference) : Prop :=
  ∃ r, sheet.findRule ref.ruleId = some r ∧ ref.declarationId ∈ r.declarations.map Declaration.id

theorem Holds.leads (h : Holds sheet ref) : Leads sheet ref := by
  obtain ⟨r, hr, -, hd⟩ := h
  exact ⟨r, hr, hd⟩

theorem Holds.found (h : Holds sheet ref) :
    ∃ r d, sheet.findRule ref.ruleId = some r ∧ r.findDeclaration ref.declarationId = some d := by
  obtain ⟨r, hr, -, hd⟩ := h
  obtain ⟨d, hd⟩ := exists_findDeclaration_iff.2 hd
  exact ⟨r, d, hr, hd⟩

/-- A sheet holds the references that were found in it. -/
theorem holds_of_mem_groups {g : Group} (hids : sheet.ruleIds.Nodup) (hg : g ∈ groups sheet)
    (href : ref ∈ g.members) : Holds sheet ref := by
  obtain ⟨r, hr, hcandidate⟩ := candidate_of_mem_groups hg href
  obtain ⟨hrule, hselectors, d, hdecides, hd⟩ := findImage_spec (candidate_spec hcandidate).1
  refine ⟨r, ?_, hselectors.symm, ?_⟩
  · rw [hrule]
    exact Stylesheet.findRule_of_mem hids hr
  · rw [hd]
    exact List.mem_map_of_mem hdecides.mem

/-! ## What a step keeps -/

/-- A rule with a declaration at its end. -/
def withLast (r : Rule) (d : Declaration) : Rule := { r with body := r.body ++ [.declaration d] }

theorem withLast_ids (r : Rule) (d : Declaration) :
    (withLast r d).declarations.map Declaration.id =
      r.declarations.map Declaration.id ++ [d.id] := by
  simp [withLast, Rule.declarations, BodyItem.declaration?]

/-- Placing a member leaves under every id a rule with the same selectors and with all
declarations that it had, by their ids. -/
theorem findRule_place {r r' positioned : Rule} {size position : Declaration} {i : Int}
    (hfind : sheet.findRule head.ruleId = some r) (hposition : position.id = head.declarationId)
    (hreplace : (withLast r size).replaceDeclaration head.declarationId position =
      some positioned) (hr' : sheet.findRule i = some r') :
    ∃ r'', (sheet.newId.2.setRule head.ruleId positioned).findRule i = some r'' ∧
      r''.selectors = r'.selectors ∧
      ∀ d ∈ r'.declarations.map Declaration.id, d ∈ r''.declarations.map Declaration.id := by
  have hid : positioned.id = head.ruleId := by
    have : r.id = head.ruleId := by simpa using List.find?_some hfind
    exact (replaceDeclaration_id hreplace).trans this
  have lookup : (sheet.newId.2.setRule head.ruleId positioned).findRule i = _ :=
    Stylesheet.findRule_setRule hid i
  by_cases hsame : i = head.ruleId
  · -- the rule is the one that has been changed, and what it had it still has
    rw [hsame] at hr'
    cases hfind.symm.trans hr'
    have selectors : positioned.selectors = (withLast r size).selectors :=
      replaceDeclaration_selectors hreplace
    refine ⟨positioned, ?_, selectors, fun d hd => ?_⟩
    · rw [lookup, if_pos hsame]
      exact congrArg (Option.map _) hfind
    · rw [replaceDeclaration_ids hposition hreplace, withLast_ids]
      exact List.mem_append_left _ hd
  · refine ⟨r', ?_, rfl, fun d hd => hd⟩
    rw [lookup, if_neg hsame]
    exact hr'

/-- Placing a member takes no reference out of the sheet. -/
theorem Leads.place {r positioned : Rule} {size position : Declaration} (h : Leads sheet ref)
    (hfind : sheet.findRule head.ruleId = some r) (hposition : position.id = head.declarationId)
    (hreplace : (withLast r size).replaceDeclaration head.declarationId position =
      some positioned) :
    Leads (sheet.newId.2.setRule head.ruleId positioned) ref := by
  obtain ⟨r', hr', hd⟩ := h
  obtain ⟨r'', hr'', -, hkeeps⟩ := findRule_place hfind hposition hreplace hr'
  exact ⟨r'', hr'', hkeeps _ hd⟩

theorem Holds.place {r positioned : Rule} {size position : Declaration} (h : Holds sheet ref)
    (hfind : sheet.findRule head.ruleId = some r) (hposition : position.id = head.declarationId)
    (hreplace : (withLast r size).replaceDeclaration head.declarationId position =
      some positioned) :
    Holds (sheet.newId.2.setRule head.ruleId positioned) ref := by
  obtain ⟨r', hr', hselectors, hd⟩ := h
  obtain ⟨r'', hr'', hsame, hkeeps⟩ := findRule_place hfind hposition hreplace hr'
  exact ⟨r'', hr'', hsame.trans hselectors, hkeeps _ hd⟩

theorem Places.holds (h : Places sprite resolve sheet refs last) (href : Holds sheet ref) :
    Holds last ref := by
  induction h with
  | done => exact href
  | skip _ _ ih => exact ih href
  | place _ hfind hreplace _ ih => exact ih (href.place hfind rfl hreplace)

/-- Placing a member adds an item with a fresh id to its rule, and changes no id. -/
theorem numbered_place {r positioned : Rule} {size position : Declaration} (h : sheet.Numbered)
    (hfind : sheet.findRule head.ruleId = some r) (hsize : size.id = sheet.newId.1)
    (hposition : position.id = head.declarationId)
    (hreplace : (withLast r size).replaceDeclaration head.declarationId position =
      some positioned) :
    (sheet.newId.2.setRule head.ruleId positioned).Numbered := by
  have hfind' : sheet.newId.2.findRule head.ruleId = some r := hfind
  obtain ⟨before, after, hnodes, hset⟩ := Stylesheet.exists_split_of_findRule hfind'
  have hbody : positioned.body.map BodyItem.id = r.body.map BodyItem.id ++ [sheet.newId.1] := by
    rw [replaceDeclaration_body_ids hposition hreplace, ← hsize]
    simp [withLast, BodyItem.id]
  have hid : positioned.id = (withLast r size).id := replaceDeclaration_id hreplace
  exact h.extend hnodes hid hbody (hset positioned) rfl

theorem Places.numbered (h : Places sprite resolve sheet refs last) (hsheet : sheet.Numbered) :
    last.Numbered := by
  induction h with
  | done => exact hsheet
  | skip _ _ ih => exact ih hsheet
  | place _ hfind hreplace _ ih => exact ih (numbered_place hsheet hfind rfl rfl hreplace)

/-! ## What it takes to place members -/

/-- A member and the box in which its image stands, in a sprite sheet of this size. -/
structure Target where
  ref : Reference
  box : Box
  width : Int
  height : Int

/-- The members that have a box, in their order. -/
def targets (sprite : SpriteMap) (resolve : String → String) (refs : List Reference) :
    List Target :=
  refs.filterMap fun ref =>
    (sprite.placements.lookup (resolve ref.url)).map fun box =>
      ⟨ref, box, sprite.width, sprite.height⟩

theorem mem_targets_iff {t : Target} : t ∈ targets sprite resolve refs ↔ t.ref ∈ refs ∧
    sprite.placements.lookup (resolve t.ref.url) = some t.box ∧ t.width = sprite.width ∧
    t.height = sprite.height := by
  obtain ⟨ref, box, width, height⟩ := t
  simp only [targets, List.mem_filterMap, Option.map_eq_some_iff, Target.mk.injEq]
  constructor
  · rintro ⟨ref', href, box', hbox, rfl, rfl, rfl, rfl⟩
    exact ⟨href, hbox, rfl, rfl⟩
  · rintro ⟨href, hbox, rfl, rfl⟩
    exact ⟨ref, href, box, hbox, rfl, rfl, rfl, rfl⟩

theorem targets_sublist (sprite : SpriteMap) (resolve : String → String) (refs : List Reference) :
    ((targets sprite resolve refs).map Target.ref).Sublist refs := by
  induction refs with
  | nil => exact .slnil
  | cons ref refs ih =>
    rw [targets, List.filterMap_cons]
    cases sprite.placements.lookup (resolve ref.url) with
    | none => exact ih.cons ref
    | some box => exact ih.cons_cons ref

/-- Members that all have a box are all targets. -/
theorem targets_refs (hbox : ∀ ref ∈ refs,
      ∃ box, sprite.placements.lookup (resolve ref.url) = some box) :
    (targets sprite resolve refs).map Target.ref = refs := by
  have found : ∀ ref ∈ refs, ((sprite.placements.lookup (resolve ref.url)).map fun box =>
      (⟨ref, box, sprite.width, sprite.height⟩ : Target)).map Target.ref = some ref := by
    intro ref href
    obtain ⟨box, hlookup⟩ := hbox ref href
    rw [hlookup]
    rfl
  rw [targets, List.map_filterMap, List.filterMap_congr found, List.filterMap_some]

/-- The selectors of the rule with an id. -/
def selectorsAt (sheet : Stylesheet) (i : Int) : List String :=
  (sheet.findRule i).elim [] Rule.selectors

theorem Leads.selectorsAt_place {r positioned : Rule} {size position : Declaration}
    (h : Leads sheet ref) (hfind : sheet.findRule head.ruleId = some r)
    (hposition : position.id = head.declarationId)
    (hreplace : (withLast r size).replaceDeclaration head.declarationId position =
      some positioned) :
    selectorsAt (sheet.newId.2.setRule head.ruleId positioned) ref.ruleId =
      selectorsAt sheet ref.ruleId := by
  obtain ⟨r', hr', -⟩ := h
  obtain ⟨r'', hr'', hsame, -⟩ := findRule_place hfind hposition hreplace hr'
  simp only [selectorsAt, hr', hr'']
  exact hsame

/-- Members that lead to a declaration are placed if they have a box, and skipped if not. -/
theorem placeMembers_of_leads (sprite : SpriteMap) (resolve : String → String)
    (hleads : ∀ ref ∈ refs, Leads sheet ref) :
    (placeMembers sprite resolve sheet refs).skipped =
        refs.filter (fun ref => (sprite.placements.lookup (resolve ref.url)).isNone) ∧
      (placeMembers sprite resolve sheet refs).selectors =
        .ok ((targets sprite resolve refs).flatMap fun t => selectorsAt sheet t.ref.ruleId) := by
  induction refs generalizing sheet with
  | nil => exact ⟨rfl, rfl⟩
  | cons head refs ih =>
    obtain ⟨hhead, hrefs⟩ := List.forall_mem_cons.1 hleads
    rw [targets, List.filterMap_cons]
    cases hlookup : sprite.placements.lookup (resolve head.url) with
    | none =>
      obtain ⟨hskipped, hrest⟩ := ih hrefs
      simp only [placeMembers, hlookup]
      rw [List.filter_cons_of_pos (by simp [hlookup])]
      exact ⟨congrArg _ hskipped, hrest⟩
    | some box =>
      obtain ⟨r, hfind, hd⟩ := hhead
      let size := sizeDeclaration sprite sheet.newId.1
      let position := positionDeclaration box head.declarationId
      have hmem : head.declarationId ∈ (withLast r size).declarations.map Declaration.id := by
        rw [withLast_ids]
        exact List.mem_append_left _ hd
      obtain ⟨positioned, hreplace⟩ := exists_replaceDeclaration position hmem
      obtain ⟨hskipped, hrest⟩ :=
        ih (fun ref href => (hrefs ref href).place hfind rfl hreplace)
      have same : ((targets sprite resolve refs).flatMap fun t =>
          selectorsAt (sheet.newId.2.setRule head.ruleId positioned) t.ref.ruleId) =
          (targets sprite resolve refs).flatMap fun t => selectorsAt sheet t.ref.ruleId :=
        List.flatMap_congr fun t ht =>
          (hrefs t.ref (mem_targets_iff.1 ht).1).selectorsAt_place hfind rfl hreplace
      have hreplace' : ({ r with body := r.body ++ [.declaration size] } : Rule).replaceDeclaration
          head.declarationId position = some positioned := hreplace
      simp only [placeMembers, hlookup, hfind]
      rw [hreplace', List.filter_cons_of_neg (by simp [hlookup])]
      refine ⟨hskipped, ?_⟩
      change Except.map _ (placeMembers sprite resolve _ refs).selectors = _
      rw [hrest, same]
      simp only [Option.map_some, List.flatMap_cons, selectorsAt, hfind]
      rfl

theorem Holds.selectorsAt_eq (h : Holds sheet ref) :
    selectorsAt sheet ref.ruleId = ref.selectors := by
  obtain ⟨r, hr, hselectors, -⟩ := h
  simp only [selectorsAt, hr]
  exact hselectors

/-- Members that the sheet holds have the selectors with them that the placing collects. -/
theorem placeMembers_of_holds (sprite : SpriteMap) (resolve : String → String)
    (hholds : ∀ ref ∈ refs, Holds sheet ref) :
    (placeMembers sprite resolve sheet refs).selectors =
      .ok ((targets sprite resolve refs).flatMap fun t => t.ref.selectors) := by
  rw [(placeMembers_of_leads sprite resolve fun ref href => (hholds ref href).leads).2]
  exact congrArg _ (List.flatMap_congr fun t ht =>
    (hholds t.ref (mem_targets_iff.1 ht).1).selectorsAt_eq)

/-- A group whose members the sheet holds and that have a box gets the rule that names
its sprite sheet for all their selectors. -/
theorem placeGroup_of_holds {url : String} (hholds : ∀ ref ∈ refs, Holds sheet ref)
    (hbox : ∀ ref ∈ refs, ∃ box, sprite.placements.lookup (resolve ref.url) = some box) :
    (placeGroup sheet refs sprite url resolve).skipped = [] ∧
      (placeGroup sheet refs sprite url resolve).result =
        .ok (if refs.flatMap Reference.selectors = [] then none
          else some (sheetRule url (refs.flatMap Reference.selectors))) := by
  have skipped :=
    (placeMembers_of_leads sprite resolve fun ref href => (hholds ref href).leads).1
  have none_left : refs.filter (fun ref => (sprite.placements.lookup (resolve ref.url)).isNone) =
      [] := by
    rw [List.filter_eq_nil_iff]
    intro ref href
    obtain ⟨box, hlookup⟩ := hbox ref href
    simp [hlookup]
  have all : (targets sprite resolve refs).flatMap (fun t => t.ref.selectors) =
      refs.flatMap Reference.selectors := by
    rw [← List.flatMap_map Target.ref Reference.selectors, targets_refs hbox]
  refine ⟨skipped.trans none_left, ?_⟩
  simp only [placeGroup, placeMembers_of_holds sprite resolve hholds, all]
  rfl

end Spriting.Background

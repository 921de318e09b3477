import Spriting.Proofs.Background.UrlReading

/-!
# Which declaration decides

The declarations of a rule are asked from the last to the first, and those that say nothing about
the image are passed over.  So what a value does to a rule is what it says: values that say the
same do the same to every rule, and values that do not can be told apart.

* `verdict_opening`, `verdict_silent`: what a value says;
* `decideImage_silent`: what is passed over;
* `alike_iff`: values that no rule tells apart;
* `optsOut_iff`: values that keep a rule from having an image.
-/

namespace Spriting.Background

open Css Text

variable {r : Rule} {d : Declaration} {ds es : List Declaration} {value value' : String}

/-! ## What a value says -/

/-- What a reference says about the image. -/
def Verdict.ofReading : Option UrlText → Verdict
  | none => .silent
  | some u =>
    if holdsFolded ignoreMark (u.tail ++ u.after) then .leave
    else .image (String.ofList (trim u.path))

/-- A value with one reference says what that says, and a value with more leaves the rule alone. -/
theorem verdict_opening {opening : List Char} (hopening : Folds urlOpening opening)
    (pre inside : List Char) :
    verdict (pre ++ (opening ++ inside)) =
      if holdsFolded urlOpening pre || holdsFolded urlOpening inside then .leave
      else .ofReading (readInside inside) := by
  have hcount := countFolded_opening hopening pre inside
  by_cases hmore : (holdsFolded urlOpening pre || holdsFolded urlOpening inside) = true
  · have several : countFolded urlOpening pre + countFolded urlOpening inside ≠ 0 := by
      rw [ne_eq, Nat.add_eq_zero_iff, countFolded_eq_zero_iff, countFolded_eq_zero_iff]
      rintro ⟨hpre, hinside⟩
      simp [hpre, hinside] at hmore
    obtain ⟨n, hn⟩ := Nat.exists_eq_succ_of_ne_zero several
    rw [if_pos hmore, verdict, hcount, hn]
    rfl
  · simp only [Bool.or_eq_true, not_or, Bool.not_eq_true] at hmore
    rw [countFolded_eq_zero_iff.2 hmore.1, countFolded_eq_zero_iff.2 hmore.2] at hcount
    rw [hmore.1, hmore.2, verdict, hcount, findUrl_opening hopening hmore.1 hmore.2]
    cases readInside inside <;> rfl

theorem verdict_silent {value : List Char} (h : holdsFolded urlOpening value = false) :
    verdict value = .silent := by
  rw [verdict, countFolded_eq_zero_iff.2 h]
  rfl

/-! ## What a rule decides -/

theorem decideImage_silent (h : ∀ d ∈ ds, verdict d.value.toList = .silent) :
    decideImage (ds ++ es) = decideImage es := by
  induction ds with
  | nil => rfl
  | cons d ds ih =>
    obtain ⟨hd, hds⟩ := List.forall_mem_cons.1 h
    rw [List.cons_append, decideImage, hd]
    exact ih hds

theorem decideImage_leave (h : verdict d.value.toList = .leave) : decideImage (d :: ds) = none := by
  rw [decideImage, h]

theorem decideImage_image {url : String} (h : verdict d.value.toList = .image url) :
    decideImage (d :: ds) = some (d, url) := by
  rw [decideImage, h]

/-- What is decided depends on a value by what it says only, but for the value itself. -/
theorem decideImage_congr (h : verdict value.toList = verdict value'.toList) :
    (decideImage (ds ++ { d with value } :: es)).map (fun p => (p.1.id, p.2)) =
      (decideImage (ds ++ { d with value := value' } :: es)).map fun p => (p.1.id, p.2) := by
  induction ds with
  | nil =>
    rw [List.nil_append, List.nil_append, decideImage, decideImage, h]
    cases verdict value'.toList <;> rfl
  | cons e ds ih =>
    rw [List.cons_append, List.cons_append, decideImage, decideImage]
    cases verdict e.value.toList with
    | silent => exact ih
    | leave => rfl
    | image url => rfl

/-! ## Values that do the same -/

/-- The rule with this value in the place of that of `d`. -/
def spell (r : Rule) (before : List BodyItem) (d : Declaration) (after : List BodyItem)
    (value : String) : Rule :=
  { r with body := before ++ .declaration { d with value } :: after }

/-- No rule in which one of the values stands for the image has another image with the other. -/
def Alike (value value' : String) : Prop :=
  ∀ r before d after, sets imageProperties d = true →
    findImage (spell r before d after value) = findImage (spell r before d after value')

/-- The declarations among the items that may decide on an image. -/
def imageDeclarations (items : List BodyItem) : List Declaration :=
  (items.filterMap BodyItem.declaration?).filter (sets imageProperties)

theorem spell_declarations (r : Rule) (before after : List BodyItem)
    (hd : sets imageProperties d = true) (value : String) :
    (spell r before d after value).declarations.filter (sets imageProperties) =
      imageDeclarations before ++ { d with value } :: imageDeclarations after := by
  have hsets : sets imageProperties { d with value } = true := hd
  simp [spell, Rule.declarations, imageDeclarations, BodyItem.declaration?, hsets]

theorem findImage_spell (r : Rule) (before after : List BodyItem)
    (hd : sets imageProperties d = true) (value : String) :
    findImage (spell r before d after value) =
      ((decideImage ((imageDeclarations after).reverse ++
        { d with value } :: (imageDeclarations before).reverse)).map fun p => (p.1.id, p.2)).map
          fun p => ⟨p.2, r.id, p.1, r.selectors⟩ := by
  rw [findImage, spell_declarations r before after hd, Option.map_map]
  simp only [List.reverse_append, List.reverse_cons, List.append_assoc, List.singleton_append]
  rfl

/-- A declaration of an image. -/
def sampleDeclaration : Declaration := { property := "background", value := "url(x.png)", id := 1 }

/-- A rule in which the value comes behind an image. -/
def sampleRule (value : String) : Rule :=
  spell { selectors := [], body := [] } [.declaration sampleDeclaration]
    { property := "background", value := "", id := 2 } [] value

theorem sampleRule_declarations (value : String) :
    (sampleRule value).declarations.filter (sets imageProperties) =
      [sampleDeclaration, { property := "background", value, id := 2 }] :=
  spell_declarations _ _ _ (by decide) value

/-- In the sample each verdict shows. -/
theorem findImage_sampleRule (value : String) :
    findImage (sampleRule value) =
      match verdict value.toList with
      | .silent => some ⟨"x.png", 0, 1, []⟩
      | .leave => none
      | .image url => some ⟨url, 0, 2, []⟩ := by
  have himage : decideImage [sampleDeclaration] = some (sampleDeclaration, "x.png") :=
    decideImage_image (by decide +kernel)
  rw [findImage, sampleRule_declarations, List.reverse_cons, List.reverse_singleton,
    List.singleton_append, decideImage, himage]
  cases verdict value.toList <;> rfl

/-- Values are alike if they say the same. -/
theorem alike_iff : Alike value value' ↔ verdict value.toList = verdict value'.toList := by
  constructor
  · intro h
    have hsample : findImage (sampleRule value) = findImage (sampleRule value') :=
      h _ _ _ _ (by decide)
    rw [findImage_sampleRule, findImage_sampleRule] at hsample
    cases hv : verdict value.toList <;> cases hv' : verdict value'.toList <;>
      rw [hv, hv'] at hsample <;> simp_all
  · intro h r before d after hd
    rw [findImage_spell r before after hd, findImage_spell r before after hd, decideImage_congr h]

/-! ## Values that leave a rule alone -/

/-- No rule has an image in which this is the value of the last declaration with a reference. -/
def OptsOut (value : List Char) : Prop :=
  ∀ r earlier d later, r.declarations.filter (sets imageProperties) = earlier ++ d :: later →
    d.value.toList = value →
    (∀ e ∈ later, holdsFolded urlOpening e.value.toList = false) → findImage r = none

theorem optsOut_iff {value : List Char} : OptsOut value ↔ verdict value = .leave := by
  constructor
  · intro h
    let d : Declaration := { property := "background", value := String.ofList value, id := 2 }
    have hsample := h (sampleRule (String.ofList value)) [sampleDeclaration] d []
      (sampleRule_declarations _) String.toList_ofList nofun
    rw [findImage_sampleRule, String.toList_ofList] at hsample
    cases hv : verdict value <;> simp_all
  · intro h r earlier d later hsplit hvalue hlater
    have silent : ∀ e ∈ later.reverse, verdict e.value.toList = .silent :=
      fun e he => verdict_silent (hlater e (List.mem_reverse.1 he))
    rw [findImage, hsplit, List.reverse_append, List.reverse_cons, List.append_assoc,
      decideImage_silent silent, List.singleton_append, decideImage_leave (hvalue ▸ h)]
    rfl

end Spriting.Background

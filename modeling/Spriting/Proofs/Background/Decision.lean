import Spriting.Proofs.Background.Deciding
import Spriting.Proofs.Background.References
import Spriting.Proofs.Text.Lowering

/-!
# One declaration decides

A declaration settles what the image of its rule is if its value has several openings of a
reference, or one opening and a reference.  The last such declaration of a rule decides alone:
nothing else in the rule can change the image.

* `silent_iff`: a value says nothing unless it settles the image;
* `decideImage_eq`: the first declaration that settles it decides;
* `findImage_deciding`: the image of a rule is that of its deciding declaration.
-/

namespace Spriting.Background

open Css Text

variable {r : Rule} {d : Declaration} {ds : List Declaration} {value : List Char} {u : UrlText}
  {url : String}

/-- How many references are opened in a text, in any case. -/
def openings (value : List Char) : Nat := (lower value).tails.countP urlOpening.isPrefixOf

/-- A value settles what the image is. -/
def Settles (value : List Char) : Prop :=
  1 < openings value ∨ openings value = 1 ∧ Refers value

instance (value : List Char) : Decidable (Settles value) := inferInstanceAs (Decidable (_ ∨ _))

/-- The last declaration of the image of a rule that settles what it is. -/
def deciding (r : Rule) : Option Declaration :=
  ((r.declarations.filter (sets imageProperties)).filter fun d => Settles d.value.toList).getLast?

/-- The rule cut down to one declaration. -/
def only (r : Rule) (d : Declaration) : Rule := { r with body := [.declaration d] }

theorem openings_eq (value : List Char) : openings value = countFolded urlOpening value :=
  countP_tails_lower (by decide) (List.forall_iff_forall_mem.1 (by decide)) value

/-! ## What a value says -/

/-- What a value with one opening says is what is found in it. -/
theorem verdict_of_one (h : openings value = 1) : verdict value = .ofReading (findUrl value) := by
  rw [openings_eq] at h
  rw [verdict, h]
  cases findUrl value <;> rfl

theorem verdict_of_several (h : 1 < openings value) : verdict value = .leave := by
  rw [openings_eq] at h
  obtain ⟨n, hn⟩ := Nat.exists_eq_add_of_lt h
  rw [verdict, show countFolded urlOpening value = n + 2 by omega]
  rfl

theorem verdict_of_none (h : openings value = 0) : verdict value = .silent := by
  rw [openings_eq] at h
  rw [verdict, h]
  rfl

theorem silent_iff : verdict value = .silent ↔ ¬ Settles value := by
  rcases Nat.lt_trichotomy (openings value) 1 with h | h | h
  · have hnone : openings value = 0 := by omega
    rw [verdict_of_none hnone, Settles, hnone]
    simp
  · rw [verdict_of_one h, Settles, h, ← findUrl_isSome_iff]
    cases findUrl value with
    | none => simp [Verdict.ofReading]
    | some u =>
      rw [Verdict.ofReading]
      split <;> simp
  · rw [verdict_of_several h, Settles]
    simp [h]

/-! ## What a rule decides -/

/-- The first declaration that settles the image decides as it does alone. -/
theorem decideImage_eq (ds : List Declaration) :
    decideImage ds =
      (ds.find? fun d => decide (Settles d.value.toList)).bind fun d => decideImage [d] := by
  induction ds with
  | nil => rfl
  | cons d ds ih =>
    by_cases hd : Settles d.value.toList
    · rw [List.find?_cons_of_pos (by simpa using hd), Option.bind_some, decideImage, decideImage]
      cases h : verdict d.value.toList with
      | silent => exact absurd hd (silent_iff.1 h)
      | leave => rfl
      | image url => rfl
    · rw [List.find?_cons_of_neg (by simpa using hd), decideImage, silent_iff.2 hd]
      exact ih

theorem deciding_eq (r : Rule) :
    deciding r = (r.declarations.filter (sets imageProperties)).reverse.find? fun d =>
      decide (Settles d.value.toList) := by
  rw [deciding, ← List.head?_reverse, ← List.filter_reverse, List.head?_filter]

theorem deciding_mem (h : deciding r = some d) :
    d ∈ r.declarations ∧ sets imageProperties d = true ∧ Settles d.value.toList := by
  obtain ⟨hmem, hsettles⟩ := List.mem_filter.1 (List.mem_of_getLast? h)
  obtain ⟨hdecl, hsets⟩ := List.mem_filter.1 hmem
  exact ⟨hdecl, hsets, of_decide_eq_true hsettles⟩

theorem only_declarations (hd : sets imageProperties d = true) :
    (only r d).declarations.filter (sets imageProperties) = [d] := by
  simp [only, Rule.declarations, BodyItem.declaration?, hd]

theorem findImage_only (hd : sets imageProperties d = true) :
    findImage (only r d) = (decideImage [d]).map fun p =>
      { url := p.2, ruleId := r.id, declarationId := p.1.id, selectors := r.selectors } := by
  rw [findImage, only_declarations hd]
  rfl

theorem findImage_eq (r : Rule) :
    findImage r = (deciding r).bind fun d => findImage (only r d) := by
  rw [findImage, decideImage_eq, ← deciding_eq]
  cases h : deciding r with
  | none => rfl
  | some d =>
    rw [Option.bind_some, Option.bind_some, findImage_only (deciding_mem h).2.1]

/-! ## What is found -/

/-- An image is named by a value with one opening, and its name is the path that is read there. -/
theorem verdict_image (h : verdict value = .image url) :
    openings value = 1 ∧ ∃ u, findUrl value = some u ∧ url = String.ofList (trim u.path) := by
  rcases Nat.lt_trichotomy (openings value) 1 with hcount | hcount | hcount
  · have hnone : openings value = 0 := by omega
    rw [verdict_of_none hnone] at h
    cases h
  · rw [verdict_of_one hcount] at h
    cases hu : findUrl value with
    | none =>
      rw [hu] at h
      cases h
    | some u =>
      rw [hu, Verdict.ofReading] at h
      split at h
      · cases h
      · exact ⟨hcount, u, rfl, (Verdict.image.inj h).symm⟩
  · rw [verdict_of_several hcount] at h
    cases h

/-- The image of a rule is named by the declaration that decides. -/
theorem deciding_of_findImage {ref : Reference} (h : findImage r = some ref) :
    ∃ d, deciding r = some d ∧ verdict d.value.toList = .image ref.url ∧
      ref = ⟨ref.url, r.id, d.id, r.selectors⟩ := by
  rw [findImage_eq, Option.bind_eq_some_iff] at h
  obtain ⟨d, hd, hfound⟩ := h
  rw [findImage_only (deciding_mem hd).2.1] at hfound
  obtain ⟨⟨d', url⟩, hdecide, rfl⟩ := Option.map_eq_some_iff.1 hfound
  rw [decideImage] at hdecide
  refine ⟨d, hd, ?_⟩
  split at hdecide
  · cases hdecide
  · cases hdecide
  · rename_i hverdict
    cases hdecide
    exact ⟨hverdict, rfl⟩

/-- A value with one opening is split there in one way, and behind it the reference is read. -/
theorem exists_opening (hone : openings value = 1) (hu : findUrl value = some u) :
    ∃ pre opening inside, value = pre ++ (opening ++ inside) ∧ Folds urlOpening opening ∧
      readInside inside = some u := by
  have hrefers : Refers value := findUrl_isSome_iff.1 (by rw [hu]; rfl)
  obtain ⟨pre, opening, inside, -, rfl, hopening, -⟩ := hrefers
  rw [openings_eq, countFolded_opening hopening, Nat.add_eq_right, Nat.add_eq_zero_iff,
    countFolded_eq_zero_iff, countFolded_eq_zero_iff] at hone
  rw [findUrl_opening hopening hone.1 hone.2] at hu
  exact ⟨pre, opening, inside, rfl, hopening, hu⟩

/-! ## The image of a rule -/

/-- **One declaration decides.** The image of a rule is that of the rule cut down to its deciding
declaration, and there is none if no declaration decides; so rules that have the deciding
declaration in common have the same image, whatever else stands in them.  And the image found is
named behind the opening in the value of that declaration: by a text that is not empty, has no
quotes and no round brackets, and neither starts nor ends with a blank. -/
theorem findImage_deciding (r : Rule) :
    findImage r = (deciding r).bind (fun d => findImage (only r d)) ∧
    (∀ r' : Rule, r'.id = r.id → r'.selectors = r.selectors → deciding r' = deciding r →
      findImage r' = findImage r) ∧
    ∀ ref, findImage r = some ref →
      ∃ d pre opening inside, deciding r = some d ∧ ref = ⟨ref.url, r.id, d.id, r.selectors⟩ ∧
        d.value.toList = pre ++ (opening ++ inside) ∧ Folds urlOpening opening ∧
        ref.url.toList <:+: inside ∧ ref.url.toList ≠ [] ∧
        (∀ c ∈ ref.url.toList, c ≠ '"' ∧ c ≠ '\'' ∧ c ≠ '(' ∧ c ≠ ')') ∧
        trim ref.url.toList = ref.url.toList := by
  refine ⟨findImage_eq r, ?_, ?_⟩
  · intro r' hid hselectors hsame
    rw [findImage_eq, findImage_eq, hsame]
    cases h : deciding r with
    | none => rfl
    | some d =>
      have hd := (deciding_mem h).2.1
      rw [Option.bind_some, Option.bind_some, findImage_only hd, findImage_only hd, hid, hselectors]
  · intro ref href
    obtain ⟨d, hd, hverdict, hfields⟩ := deciding_of_findImage href
    obtain ⟨hone, u, hu, hurl⟩ := verdict_image hverdict
    obtain ⟨pre, opening, inside, hvalue, hopening, hread⟩ := exists_opening hone hu
    obtain ⟨gap, gap', mark, hinside, -, -, himage, -⟩ := readInside_matches hread
    have hchars : ref.url.toList = trim u.path := by rw [hurl, String.toList_ofList]
    obtain ⟨b, b', -, -, hpath⟩ := exists_trim u.path
    have hwithin : trim u.path <:+: u.path := ⟨b, b', by rw [List.append_assoc, ← hpath]⟩
    have hbehind : u.path <:+: inside := by
      rw [hinside, ← List.append_assoc gap]
      exact List.infix_append' _ _ _
    refine ⟨d, pre, opening, inside, hd, hfields, hvalue, hopening, ?_, ?_, ?_, ?_⟩
    · rw [hchars]
      exact hwithin.trans hbehind
    · rw [hchars, ne_eq, trim_eq_nil_iff]
      exact himage.not_allBlank
    · intro c hc
      rw [hchars] at hc
      have hpathChar := himage.pathChar c (hwithin.subset hc)
      simpa [isPathChar, isQuoteMark, and_assoc] using hpathChar
    · rw [hchars, trim_trim]

/-- Of three declarations the last names no image and the one before it decides. -/
def threeImages : Rule where
  selectors := ["a"]
  body :=
    [.declaration ⟨"background", "url(dot.png), url(bar.png)", 2⟩, .comment ⟨"url(x.png)", 3⟩,
     .declaration ⟨"Background-Image", "URL( ' bar.png ' )", 4⟩,
     .declaration ⟨"background", "url(bar.svg)", 5⟩]
  id := 1

theorem findImage_deciding_middle :
    deciding threeImages = some ⟨"Background-Image", "URL( ' bar.png ' )", 4⟩ ∧
    findImage threeImages = some ⟨"bar.png", 1, 4, ["a"]⟩ := by
  have hdeciding : deciding threeImages = some ⟨"Background-Image", "URL( ' bar.png ' )", 4⟩ := by
    decide +kernel
  obtain ⟨hcut, -, -⟩ := findImage_deciding threeImages
  rw [hcut, hdeciding]
  exact ⟨rfl, by decide +kernel⟩

end Spriting.Background

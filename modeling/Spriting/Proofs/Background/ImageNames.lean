import Mathlib.Data.List.DropRight
import Spriting.Proofs.Background.Decision
import Spriting.Proofs.Background.Quoting

/-!
# How much of a name is taken

In quotes the name of an image is all that stands there.  Without quotes it is the first front of
the text that looks like an image's name, and whatever follows that is taken for its tail: behind
`icons.png/dot.png` stands the image `icons.png`, and behind `dot.png.bak` stands `dot.png`.

* `readInside_unquoted`: what is read without quotes;
* `bared_append`: which part of a text is left when blanks and quotes around it are gone;
* `findImage_takes`: when the whole name of an image is taken.
-/

namespace Spriting.Background

open Css Text

variable {text name rest v w gap inside post tail : List Char} {q : Char} {u : UrlText}

/-- A character that does not count at the ends of what stands in round brackets. -/
def isEdge (c : Char) : Bool := isBlank c || isQuoteMark c

/-- A text without the blanks and quotes around it. -/
def bared (text : List Char) : List Char := (text.dropWhile isEdge).rdropWhile isEdge

/-- `name` is all of the text but for a query or a fragment. -/
def TakesWhole (name text : List Char) : Prop :=
  ∃ rest, text = name ++ rest ∧ ∀ c ∈ rest.head?, c = '?' ∨ c = '#'

/-- The first image name at the front of a text: the shortest front that is the path of an image,
or an ending by itself if no front is. -/
def FirstName (text name : List Char) : Prop :=
  name <+: text ∧
    (IsImagePath name ∧ (∀ v, v <+: name → IsImagePath v → v = name) ∨
      IsEnding name ∧ ∀ v, v <+: text → ¬ IsImagePath v)

theorem takesWhole_append_iff :
    TakesWhole name (name ++ rest) ↔ ∀ c ∈ rest.head?, c = '?' ∨ c = '#' := by
  constructor
  · rintro ⟨rest', hsame, h⟩
    rwa [← List.append_cancel_left hsame] at h
  · intro h
    exact ⟨rest, rfl, h⟩

theorem FirstName.unique {name' : List Char} (h : FirstName text name)
    (h' : FirstName text name') : name = name' := by
  obtain ⟨hfront, hname⟩ := h
  obtain ⟨hfront', hname'⟩ := h'
  rcases hname with ⟨himage, hfirst⟩ | ⟨hending, hnone⟩ <;>
    rcases hname' with ⟨himage', hfirst'⟩ | ⟨hending', hnone'⟩
  · rcases List.prefix_or_prefix_of_prefix hfront hfront' with hpre | hpre
    · exact hfirst' name hpre himage
    · exact (hfirst name' hpre himage').symm
  · exact absurd himage (hnone' name hfront)
  · exact absurd himage' (hnone name' hfront')
  · obtain ⟨rest, rfl⟩ := hfront
    obtain ⟨rest', hrest'⟩ := hfront'
    exact (hending.unique hending' hrest'.symm).1

/-! ## The ends of a text -/

theorem IsEnding.getLast {c : Char} (h : IsEnding name) (hc : c ∈ name.getLast?) :
    isEdge c = false := by
  obtain ⟨hpath, hblank⟩ := h.bare c (List.mem_of_getLast? hc)
  rw [isEdge, hblank, isQuoteMark_of_isPathChar hpath]
  rfl

theorem IsImagePath.getLast {c : Char} (h : IsImagePath name) (hc : c ∈ name.getLast?) :
    isEdge c = false := by
  obtain ⟨ending, hending, hlast⟩ := h.getLast?_eq
  exact hending.getLast (hlast ▸ hc)

theorem FirstName.getLast {c : Char} (h : FirstName text name) (hc : c ∈ name.getLast?) :
    isEdge c = false := by
  rcases h.2 with ⟨himage, -⟩ | ⟨hending, -⟩
  · exact himage.getLast hc
  · exact hending.getLast hc

theorem rdropWhile_append {p : Char → Bool} (h : ∀ c ∈ v.getLast?, p c = false)
    (rest : List Char) : (v ++ rest).rdropWhile p = v ++ rest.rdropWhile p := by
  have hstop : v.reverse.dropWhile p = v.reverse := by
    cases hv : v.reverse with
    | nil => rfl
    | cons c cs =>
      have hc : c ∈ v.getLast? := by simp [List.getLast?_eq_head?_reverse, hv]
      rw [List.dropWhile_cons_of_neg (by simp [h c hc])]
  rw [List.rdropWhile, List.rdropWhile, List.reverse_append, List.dropWhile_append]
  split
  · rename_i hnil
    rw [hstop, List.reverse_reverse, List.isEmpty_iff.1 hnil, List.reverse_nil, List.append_nil]
  · rw [List.reverse_append, List.reverse_reverse]

theorem isEdge_of_blank (h : AllBlank gap) : ∀ c ∈ gap, isEdge c = true := by
  intro c hc
  rw [isEdge, h c hc, Bool.true_or]

/-- What stands behind blanks and starts with ink and no quote is kept in front. -/
theorem bared_append (hgap : ∀ c ∈ gap, isEdge c = true) (hhead : ∀ c ∈ v.head?, isEdge c = false)
    (hlast : ∀ c ∈ v.getLast?, isEdge c = false) (hne : v ≠ []) (rest : List Char) :
    bared (gap ++ (v ++ rest)) = v ++ rest.rdropWhile isEdge := by
  obtain ⟨c, cs, rfl⟩ := List.exists_cons_of_ne_nil hne
  have hc : isEdge c = false := hhead c rfl
  rw [bared, List.dropWhile_append_of_pos hgap, List.cons_append,
    List.dropWhile_cons_of_neg (by simp [hc]), ← List.cons_append, rdropWhile_append hlast]

/-! ## Without quotes -/

/-- A text whose front is the path of an image is read. -/
theorem IsImagePath.readPath_ne_none (h : IsImagePath v) (hclose : ')' ∈ rest) :
    readPath none false (v ++ rest) ≠ none := by
  obtain ⟨r, hend⟩ := exists_readEnd_none hclose
  obtain ⟨u, hu, -⟩ := h.read hend
  rw [hu]
  exact Option.some_ne_none u

/-- Behind blanks the first reading is that of the text behind them, or else one that starts with
some of the blanks. -/
theorem readInside_gap_cases (hgap : AllBlank gap)
    (hhead : ∀ c ∈ text.head?, isBlank c = false ∧ isQuoteMark c = false)
    (h : readInside (gap ++ text) = some u) :
    readPath none false text = some u ∨
      readPath none false text = none ∧
        ∃ g, AllBlank g ∧ readPath none false (g ++ text) = some u := by
  have inner : readInside text = readPath none false text := by
    cases text with
    | nil => rfl
    | cons c text => exact readInside_ink (hhead c rfl).1 (hhead c rfl).2
  induction gap with
  | nil => exact .inl (inner ▸ h)
  | cons c gap ih =>
    obtain ⟨hc, hgap'⟩ := List.forall_mem_cons.1 hgap
    rw [List.cons_append, readInside, if_pos hc, Option.or_eq_some_iff] at h
    rcases h with h | ⟨hnone, h⟩
    · exact ih hgap' h
    · refine .inr ⟨?_, c :: gap, hgap, h⟩
      rw [Option.eq_none_iff_forall_ne_some]
      intro v hv
      cases hnone.symm.trans (readInside_gap hgap' (inner.trans hv))

/-- A reading that starts with blanks has an ending alone behind them, if nothing is read without
them. -/
theorem readPath_blanks (hgap : AllBlank gap)
    (hnone : ∀ v, v <+: text → ¬ IsImagePath v)
    (h : readPath none false (gap ++ text) = some u) :
    ∃ rest, text = trim u.path ++ rest ∧ IsEnding (trim u.path) := by
  obtain ⟨name, ending, rest, hs, hpath, -, hname, hending, -⟩ := readPath_sound h
  have hink : ∀ c ∈ ending, isBlank c = false := fun c hc => (hending.bare c hc).2
  have alone : gap = name → ∃ rest, text = trim u.path ++ rest ∧ IsEnding (trim u.path) := by
    rintro rfl
    have htrim : trim (gap ++ ending) = ending := by
      rw [trim_blank_append hgap, trim_eq_self]
      · exact fun c hc => hink c (List.mem_of_mem_head? hc)
      · exact fun c hc => hink c (List.mem_of_getLast? hc)
    rw [hpath, htrim]
    exact ⟨rest, List.append_cancel_left hs, hending⟩
  rcases List.append_eq_append_iff.1 hs with ⟨es, rfl, htext⟩ | ⟨es, hgapname, hrest⟩
  · -- what of the name stands in the text would make a path there
    cases es with
    | nil => exact alone (by simp)
    | cons e es =>
      have himage : IsImagePath (e :: es ++ ending) :=
        ⟨e :: es, ending, rfl, List.cons_ne_nil e es,
          fun c hc => hname c (List.mem_append_right gap hc), hending⟩
      exact absurd himage (hnone _ ⟨rest, by rw [htext, List.append_assoc]⟩)
  · -- an ending does not start with a blank
    cases es with
    | nil => exact alone (by simp [hgapname])
    | cons e es =>
      obtain ⟨c, cs, hcons⟩ := List.exists_cons_of_ne_nil hending.ne_nil
      have hfirst : c = e := by
        rw [hcons] at hrest
        exact (List.cons.inj hrest).1
      have hblank : isBlank e = true := hgap e (by simp [hgapname])
      rw [← hfirst, hink c (by simp [hcons])] at hblank
      cases hblank

/-- What is read from the front of a text is the shortest front that is the path of an image. -/
theorem firstName_of_read (hhead : ∀ c ∈ text.head?, isBlank c = false)
    (h : readPath none false (text ++ ')' :: post) = some u) : FirstName text (trim u.path) := by
  obtain ⟨himage, rest, hs, -⟩ := readPath_image h
  obtain ⟨es, rfl, -⟩ := front_of_notMem (himage.not_mem (by decide)) hs.symm
  have hpath : trim u.path = u.path := by
    obtain ⟨d, ds, hcons⟩ := List.exists_cons_of_ne_nil (l := u.path) fun hnil =>
      himage.not_allBlank (hnil ▸ nofun)
    apply trim_eq_self
    · intro c hc
      rw [hcons] at hc
      exact hhead c (by rw [hcons]; exact hc)
    · intro c hc
      exact (Bool.or_eq_false_iff.1 (himage.getLast hc)).1
  rw [hpath]
  refine ⟨⟨es, rfl⟩, .inl ⟨himage, ?_⟩⟩
  -- whatever is a path in front of this one would have been read
  rintro v ⟨more, hmore⟩ hv
  have hrest : ')' ∈ more ++ (es ++ ')' :: post) := by simp
  obtain ⟨r, hend⟩ := exists_readEnd_none hrest
  obtain ⟨u', hu', hpre⟩ := hv.read hend
  rw [← List.append_assoc, hmore, ← List.append_assoc, h] at hu'
  cases hu'
  exact List.IsPrefix.eq_of_length_le ⟨more, hmore⟩ hpre.length_le

/-- What is read only with blanks in front of a text is an ending at the front of the text. -/
theorem firstName_of_blanks (hgap : AllBlank gap)
    (hnone : readPath none false (text ++ ')' :: post) = none)
    (h : readPath none false (gap ++ (text ++ ')' :: post)) = some u) :
    FirstName text (trim u.path) := by
  have nothing : ∀ v, v <+: text → ¬ IsImagePath v := by
    rintro v ⟨more, rfl⟩ hv
    rw [List.append_assoc] at hnone
    exact hv.readPath_ne_none (by simp) hnone
  have nothing' : ∀ v, v <+: text ++ ')' :: post → ¬ IsImagePath v := by
    rintro v ⟨more, hmore⟩ hv
    obtain ⟨es, hsplit, -⟩ := front_of_notMem (hv.not_mem (by decide)) hmore
    exact nothing v ⟨es, hsplit.symm⟩ hv
  obtain ⟨rest, htext, hending⟩ := readPath_blanks hgap nothing' h
  have hout : ')' ∉ trim u.path := fun hmem => by
    simpa [isPathChar] using (hending.bare _ hmem).1
  obtain ⟨es, hsplit, -⟩ := front_of_notMem hout htext.symm
  exact ⟨⟨es, hsplit.symm⟩, .inr ⟨hending, nothing⟩⟩

/-- Without quotes the first image name is read that stands behind the blanks. -/
theorem readInside_unquoted (hhead : ∀ c ∈ (trimStart inside).head?, isQuoteMark c = false)
    (h : readInside (inside ++ ')' :: post) = some u) :
    FirstName (trimStart inside) (trim u.path) := by
  obtain ⟨gap, hgap, hinside⟩ := exists_trimStart inside
  have hbehind : ∀ c ∈ (trimStart inside ++ ')' :: post).head?,
      isBlank c = false ∧ isQuoteMark c = false := by
    cases ht : trimStart inside with
    | nil =>
      rintro c ⟨⟩
      decide
    | cons d ds =>
      rintro c ⟨⟩
      exact ⟨head?_trimStart (by rw [ht]; rfl), hhead _ (by rw [ht]; rfl)⟩
  rw [hinside, List.append_assoc] at h
  rcases readInside_gap_cases hgap hbehind h with h | ⟨hnone, g, hg, h⟩
  · exact firstName_of_read (fun _ hc => head?_trimStart hc) h
  · exact firstName_of_blanks hg hnone h

/-- Quotes and blanks around the text do not hide the first image name. -/
theorem FirstName.bared (h : FirstName (trimStart inside) name)
    (hhead : ∀ c ∈ (trimStart inside).head?, isQuoteMark c = false) :
    FirstName (bared inside) name := by
  obtain ⟨gap, hgap, hinside⟩ := exists_trimStart inside
  obtain ⟨rest, hrest⟩ := h.1
  have hne : name ≠ [] := by
    rcases h.2 with ⟨himage, -⟩ | ⟨hending, -⟩
    · rintro rfl
      exact himage.not_allBlank nofun
    · exact hending.ne_nil
  have hfirst : ∀ c ∈ name.head?, isEdge c = false := by
    intro c hc
    have hc' : c ∈ (trimStart inside).head? := by
      rw [← hrest, List.head?_append_of_ne_nil _ hne]
      exact hc
    rw [isEdge, head?_trimStart hc', hhead c hc']
    rfl
  have hbared : Background.bared inside = name ++ rest.rdropWhile isEdge := by
    rw [hinside, ← hrest]
    exact bared_append (isEdge_of_blank hgap) hfirst (fun c hc => h.getLast hc) hne rest
  rw [hbared]
  refine ⟨List.prefix_append _ _, h.2.imp_right fun hending => ⟨hending.1, fun v hv => ?_⟩⟩
  apply hending.2 v
  rw [← hrest]
  exact hv.trans ((List.prefix_append_right_inj name).2 (List.rdropWhile_prefix _ _))

/-! ## In quotes -/

/-- What is left behind the closing quote is nothing, or starts with a blank or a quote. -/
theorem rdropWhile_edges_iff {es : List Char} (hes : ∀ c ∈ es.head?, isEdge c = true) :
    (∀ c ∈ (es.rdropWhile isEdge).head?, c = '?' ∨ c = '#') ↔ ∀ c ∈ es, isEdge c = true := by
  rw [← List.rdropWhile_eq_nil_iff]
  constructor
  · intro h
    obtain ⟨more, hmore⟩ := List.rdropWhile_prefix isEdge es
    cases hleft : es.rdropWhile isEdge with
    | nil => rfl
    | cons c cs =>
      have hedge : isEdge c = true := hes c (by rw [← hmore, hleft]; rfl)
      rw [hleft] at h
      rcases h c rfl with rfl | rfl <;> exact absurd hedge (by decide)
  · intro h c hc
    rw [h] at hc
    cases hc

/-- In quotes the name is all that stands there but for blanks, and it is all of the text in the
round brackets if nothing but blanks and quotes stands behind the closing quote. -/
theorem takesWhole_quoted {path gap' : List Char} (hgap : AllBlank gap) (hq : isQuoteMark q = true)
    (himage : IsImagePath path) (hgap' : AllBlank gap') :
    TakesWhole (trim path) (bared (gap ++ q :: (path ++ gap' ++ q :: tail))) ↔
      ∀ c ∈ tail, isEdge c = true := by
  obtain ⟨b, b', hb, hb', hpath⟩ := exists_trim path
  have hquote : isEdge q = true := by rw [isEdge, hq, Bool.or_true]
  have hne : trim path ≠ [] := fun hnil => himage.not_allBlank (trim_eq_nil_iff.1 hnil)
  have hink : ∀ c ∈ trim path, isBlank c = false → isEdge c = false := by
    intro c hc hblank
    have hmem : c ∈ path := by
      rw [hpath]
      simp [hc]
    rw [isEdge, hblank, isQuoteMark_of_isPathChar (himage.pathChar c hmem)]
    rfl
  have hbefore : ∀ c ∈ gap ++ q :: b, isEdge c = true := by
    intro c hc
    rcases List.mem_append.1 hc with hc | hc
    · exact isEdge_of_blank hgap c hc
    · rcases List.mem_cons.1 hc with rfl | hc
      · exact hquote
      · exact isEdge_of_blank hb c hc
  have hsplit : gap ++ q :: (path ++ gap' ++ q :: tail) =
      (gap ++ q :: b) ++ (trim path ++ (b' ++ gap' ++ q :: tail)) := by
    conv => lhs; rw [hpath]
    simp only [List.append_assoc, List.cons_append]
  have hblanks : ∀ c ∈ b' ++ gap', isEdge c = true := fun c hc =>
    (List.mem_append.1 hc).elim (isEdge_of_blank hb' c) (isEdge_of_blank hgap' c)
  rw [hsplit, bared_append hbefore (fun c hc => hink c (List.mem_of_mem_head? hc) (head?_trim hc))
      (fun c hc => hink c (List.mem_of_getLast? hc) (getLast?_trimEnd hc)) hne,
    takesWhole_append_iff, rdropWhile_edges_iff]
  · simp only [List.forall_mem_append, List.forall_mem_cons, hquote, true_and]
    exact and_iff_right (List.forall_mem_append.1 hblanks)
  · cases hcases : b' ++ gap' with
    | nil =>
      rintro c ⟨⟩
      exact hquote
    | cons d ds =>
      rintro c ⟨⟩
      exact hblanks _ (by rw [hcases]; exact List.mem_cons_self)

/-! ## The name of the image of a rule -/

/-- `inside` is what stands in the round brackets where the image of a rule is named. -/
def NamedIn (r : Rule) (ref : Reference) (inside : List Char) : Prop :=
  ∃ d pre opening post, deciding r = some d ∧ d.id = ref.declarationId ∧
    openings d.value.toList = 1 ∧
    d.value.toList = pre ++ (opening ++ (inside ++ ')' :: post)) ∧ Folds urlOpening opening ∧
    ')' ∉ inside

theorem not_mem_of_blank (h : AllBlank gap) : ')' ∉ gap := fun hmem =>
  absurd (h _ hmem) (by decide)

/-- The image of a rule is read in the round brackets of one reference. -/
theorem exists_namedIn {r : Rule} {ref : Reference} (h : findImage r = some ref) :
    ∃ inside post u, NamedIn r ref inside ∧ readInside (inside ++ ')' :: post) = some u ∧
      ref.url.toList = trim u.path ∧
      ∃ (gap gap' : List Char) (mark : Option Char),
        inside = gap ++ (mark.toList ++ (u.path ++ (gap' ++ (mark.toList ++ u.tail)))) ∧
        AllBlank gap ∧ (∀ q ∈ mark, isQuoteMark q = true) ∧ IsImagePath u.path ∧ AllBlank gap' := by
  obtain ⟨d, hd, hverdict, hfields⟩ := deciding_of_findImage h
  obtain ⟨hone, u, hu, hurl⟩ := verdict_image hverdict
  obtain ⟨pre, opening, behind, hvalue, hopening, hread⟩ := exists_opening hone hu
  obtain ⟨gap, gap', mark, hbehind, hgap, hmark, himage, hgap', htail⟩ := readInside_matches hread
  have hid : d.id = ref.declarationId := by rw [hfields]
  have hmarks : ')' ∉ mark.toList := fun hmem =>
    absurd (hmark _ (Option.mem_toList.1 hmem)) (by decide)
  have hclose : ')' ∉ gap ++ (mark.toList ++ (u.path ++ (gap' ++ (mark.toList ++ u.tail)))) := by
    simp only [List.mem_append, not_or]
    exact ⟨not_mem_of_blank hgap, hmarks, himage.not_mem (by decide), not_mem_of_blank hgap',
      hmarks, htail⟩
  have hsplit : behind =
      gap ++ (mark.toList ++ (u.path ++ (gap' ++ (mark.toList ++ u.tail)))) ++ ')' :: u.after := by
    rw [hbehind]
    simp only [List.append_assoc]
  rw [hsplit] at hvalue hread
  exact ⟨_, u.after, u, ⟨d, pre, opening, u.after, hd, hid, hone, hvalue, hopening, hclose⟩, hread,
    by rw [hurl, String.toList_ofList], gap, gap', mark, rfl, hgap, hmark, himage, hgap'⟩

/-- **How much of a name is taken.** Without quotes the image of a rule is the first image name in
the round brackets, so the name is whole exactly if a query, a fragment or nothing follows that
first name.  In quotes the image is all that stands in them but for blanks, so the name is whole
exactly if nothing but blanks and quotes stands behind the closing quote. -/
theorem findImage_takes {r : Rule} {ref : Reference} (h : findImage r = some ref) :
    ∃ inside, NamedIn r ref inside ∧
      ((∀ c ∈ (trimStart inside).head?, isQuoteMark c = false) ∧
          FirstName (bared inside) ref.url.toList ∧
          (TakesWhole ref.url.toList (bared inside) ↔
            ∃ name, FirstName (bared inside) name ∧ TakesWhole name (bared inside)) ∨
        ∃ gap q w tail, inside = gap ++ q :: (w ++ q :: tail) ∧ AllBlank gap ∧
          isQuoteMark q = true ∧ q ∉ w ∧ ref.url.toList = trim w ∧
          (TakesWhole ref.url.toList (bared inside) ↔ ∀ c ∈ tail, isEdge c = true)) := by
  obtain ⟨inside, post, u, hnamed, hread, hurl, gap, gap', mark, hinside, hgap, hmark, himage,
    hgap'⟩ := exists_namedIn h
  refine ⟨inside, hnamed, ?_⟩
  obtain ⟨-, -, -, -, -, -, -, -, -, hclose⟩ := hnamed
  rw [hurl]
  cases mark with
  | none =>
    left
    have hhead : ∀ c ∈ (trimStart inside).head?, isQuoteMark c = false := by
      intro c hc
      rw [hinside, Option.toList_none, List.nil_append, trimStart_append_of_blank hgap, trimStart,
        List.dropWhile_append] at hc
      split at hc
      · rename_i hnil
        exact absurd (List.dropWhile_eq_nil_iff.1 (List.isEmpty_iff.1 hnil)) himage.not_allBlank
      · rename_i hne
        rw [List.head?_append_of_ne_nil _ (mt List.isEmpty_iff.2 hne)] at hc
        have hmem : c ∈ u.path := (List.dropWhile_suffix _).subset (List.mem_of_mem_head? hc)
        exact isQuoteMark_of_isPathChar (himage.pathChar c hmem)
    have hfirst := (readInside_unquoted hhead hread).bared hhead
    refine ⟨hhead, hfirst, fun hwhole => ⟨_, hfirst, hwhole⟩, ?_⟩
    rintro ⟨name, hname, hwhole⟩
    rwa [hfirst.unique hname]
  | some q =>
    right
    have hq := hmark q rfl
    have hsplit : inside = gap ++ q :: (u.path ++ gap' ++ q :: u.tail) := by
      rw [hinside]
      simp
    have hapart : q ∉ u.path ++ gap' := by
      rw [List.mem_append, not_or]
      refine ⟨himage.not_mem (isPathChar_of_isQuoteMark hq), fun hmem => ?_⟩
      simpa [isBlank_of_isQuoteMark hq] using hgap' q hmem
    refine ⟨gap, q, u.path ++ gap', u.tail, hsplit, hgap, hq, hapart,
      (trim_append_of_blank hgap').symm, ?_⟩
    rw [hsplit]
    exact takesWhole_quoted hgap hq himage hgap'

/-- A query is left out, and the name is whole. -/
theorem findImage_takes_query :
    findImage (backgroundRule "url(dot.png?v=1)") = some ⟨"dot.png", 1, 2, ["a"]⟩ ∧
    ∃ inside, NamedIn (backgroundRule "url(dot.png?v=1)") ⟨"dot.png", 1, 2, ["a"]⟩ inside := by
  have h : findImage (backgroundRule "url(dot.png?v=1)") = some ⟨"dot.png", 1, 2, ["a"]⟩ := by
    decide +kernel
  obtain ⟨inside, hnamed, -⟩ := findImage_takes h
  exact ⟨h, inside, hnamed⟩

/-- Of a name with an ending in the middle the front is taken without quotes, and all of it in
them. -/
theorem findImage_inner_ending :
    findImage (backgroundRule "url(icons.png/dot.png)") = some ⟨"icons.png", 1, 2, ["a"]⟩ ∧
    ¬ TakesWhole "icons.png".toList (bared "icons.png/dot.png".toList) ∧
    findImage (backgroundRule "url(\"icons.png/dot.png\")") =
      some ⟨"icons.png/dot.png", 1, 2, ["a"]⟩ := by
  refine ⟨by decide +kernel, ?_, by decide +kernel⟩
  have hbared : bared "icons.png/dot.png".toList = "icons.png".toList ++ "/dot.png".toList := by
    decide
  rw [hbared, takesWhole_append_iff]
  intro h
  exact absurd (h '/' rfl) (by decide)

end Spriting.Background

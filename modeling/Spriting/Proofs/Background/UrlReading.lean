import Spriting.Background.Scan
import Spriting.Proofs.Text.Folding
import Spriting.Proofs.Text.Trimming

/-!
# What a reference is read as

The path of a reference is the first that will do: no front of it is a path behind which the
reference could end.  In quotes nothing but blanks may stand between the path and the closing
quote, and so there is one path at most.

* `readPath_sound`, `readPath_complete`: the path that is read;
* `readInside_quoted_iff`, `IsImagePath.readInside`, `readInside_bare`: references in quotes and
  without them;
* `countFolded_opening`, `findUrl_opening`: where a value has a reference.
-/

namespace Spriting.Background

open Text

variable {mark : Option Char} {q : Char} {s p e w rest gap tail after : List Char} {u : UrlText}
  {started : Bool}

attribute [ext] UrlText

/-! ## Endings and paths -/

/-- `e` is the ending of an image's name, in any case. -/
def IsEnding (e : List Char) : Prop := ∃ extension ∈ imageExtensions, Folds extension e

/-- `p` is the path of an image: a name without quotes and round brackets, and an ending. -/
def IsImagePath (p : List Char) : Prop :=
  ∃ name ending, p = name ++ ending ∧ name ≠ [] ∧ (∀ c ∈ name, isPathChar c = true) ∧
    IsEnding ending

/-- A text without quotes, round brackets and blanks. -/
def Bare (w : List Char) : Prop := ∀ c ∈ w, isPathChar c = true ∧ isBlank c = false

instance (w : List Char) : Decidable (Bare w) :=
  decidable_of_iff (w.all fun c => isPathChar c && !isBlank c) (by simp [Bare])

theorem IsEnding.bare (h : IsEnding e) : Bare e := by
  obtain ⟨extension, hmem, hfolds⟩ := h
  have all : imageExtensions.all (allForms fun c => isPathChar c && !isBlank c) = true := by decide
  intro c hc
  simpa using hfolds.forall (List.all_eq_true.1 all extension hmem) c hc

theorem IsEnding.length (h : IsEnding e) : 4 ≤ e.length ∧ e.length ≤ 5 := by
  obtain ⟨extension, hmem, hfolds⟩ := h
  have all : ∀ extension ∈ imageExtensions, 4 ≤ extension.length ∧ extension.length ≤ 5 := by
    decide
  rw [← hfolds.length_eq]
  exact all extension hmem

theorem IsEnding.ne_nil (h : IsEnding e) : e ≠ [] :=
  List.ne_nil_of_length_pos (by have := h.length; omega)

/-- A text starts with one ending at most. -/
theorem IsEnding.unique {e' rest' : List Char} (h : IsEnding e) (h' : IsEnding e')
    (hsame : e ++ rest = e' ++ rest') : e = e' ∧ rest = rest' := by
  obtain ⟨x, hx, hfolds⟩ := h
  obtain ⟨x', hx', hfolds'⟩ := h'
  have ascii : ∀ x ∈ imageExtensions, x.all (·.toNat < 128) = true := by decide
  have apart : ∀ x ∈ imageExtensions, ∀ x' ∈ imageExtensions, x <+: x' → x = x' := by decide
  have models : x = x' := by
    rcases List.prefix_or_prefix_of_prefix (List.prefix_append e rest)
      (hsame ▸ List.prefix_append e' rest') with hpre | hpre
    · exact apart x hx x' hx' (hfolds.models hfolds' (ascii x hx) (ascii x' hx') hpre)
    · exact (apart x' hx' x hx (hfolds'.models hfolds (ascii x' hx') (ascii x hx) hpre)).symm
  apply List.append_inj hsame
  rw [← hfolds.length_eq, ← hfolds'.length_eq, models]

theorem IsImagePath.pathChar (h : IsImagePath p) : ∀ c ∈ p, isPathChar c = true := by
  obtain ⟨name, ending, rfl, -, hname, hending⟩ := h
  intro c hc
  rcases List.mem_append.1 hc with hc | hc
  · exact hname c hc
  · exact (hending.bare c hc).1

/-- A path ends as its ending does. -/
theorem IsImagePath.getLast?_eq (h : IsImagePath p) :
    ∃ ending, IsEnding ending ∧ p.getLast? = ending.getLast? := by
  obtain ⟨name, ending, rfl, -, -, hending⟩ := h
  exact ⟨ending, hending, List.getLast?_append_of_ne_nil name hending.ne_nil⟩

/-- No path ends with a blank. -/
theorem IsImagePath.trimEnd_append (h : IsImagePath p) (hgap : AllBlank gap) :
    trimEnd (p ++ gap) = p := by
  rw [trimEnd_append_of_blank hgap]
  obtain ⟨ending, hending, hlast⟩ := h.getLast?_eq
  apply trimEnd_eq_self
  intro c hc
  rw [hlast] at hc
  exact (hending.bare c (List.mem_of_mem_getLast? hc)).2

/-! ## The end of a reference -/

theorem readTail_append (h : ')' ∉ tail) :
    readTail (tail ++ ')' :: after) = some (tail, after) := by
  induction tail with
  | nil => rfl
  | cons c tail ih =>
    obtain ⟨hc, htail⟩ := not_or.1 (mt List.mem_cons.2 h)
    rw [List.cons_append, readTail, if_neg (Ne.symm hc), ih htail]
    rfl

theorem readTail_sound (h : readTail s = some (tail, after)) : s = tail ++ ')' :: after := by
  induction s generalizing tail with
  | nil => cases h
  | cons c s ih =>
    rw [readTail] at h
    split at h
    · rename_i hc
      cases h
      rw [hc]
      rfl
    · obtain ⟨⟨tail', after'⟩, hrest, hp⟩ := Option.map_eq_some_iff.1 h
      cases hp
      rw [ih hrest]
      rfl

theorem exists_readTail (h : ')' ∈ s) : ∃ p, readTail s = some p := by
  obtain ⟨tail, after, rfl, htail⟩ := List.eq_append_cons_of_mem h
  exact ⟨_, readTail_append htail⟩

/-- Without quotes a reference ends as its tail does. -/
theorem readEnd_none (s : List Char) : readEnd none s = readTail (trimStart s) := rfl

theorem exists_readEnd_none (h : ')' ∈ s) : ∃ r, readEnd none s = some r := by
  obtain ⟨b, hb, hs⟩ := exists_trimStart s
  rw [hs, List.mem_append] at h
  exact exists_readTail (h.resolve_left fun hmem => absurd (hb _ hmem) (by decide))

/-- In quotes blanks and the closing quote come before the tail. -/
theorem readEnd_some_iff {r : List Char × List Char} (hq : isBlank q = false) :
    readEnd (some q) s = some r ↔
      ∃ gap rest, s = gap ++ q :: rest ∧ AllBlank gap ∧ readTail rest = some r := by
  constructor
  · intro h
    obtain ⟨gap, hgap, hs⟩ := exists_trimStart s
    simp only [readEnd] at h
    split at h
    · cases h
    · rename_i c cs hcs
      split at h
      · rename_i hc
        rw [hcs, hc] at hs
        exact ⟨gap, cs, hs, hgap, h⟩
      · cases h
  · rintro ⟨gap, rest, rfl, hgap, h⟩
    have hdrop : trimStart (gap ++ q :: rest) = q :: rest := by
      rw [trimStart_append_of_blank hgap]
      exact trimStart_eq_self (by simpa using hq)
    simp only [readEnd, hdrop, if_pos]
    exact h

/-! ## The path -/

theorem readExtension_sound (h : readExtension mark s = some u) :
    ∃ rest, s = u.path ++ rest ∧ IsEnding u.path ∧ readEnd mark rest = some (u.tail, u.after) := by
  obtain ⟨extension, hmem, hu⟩ := List.exists_of_findSome?_eq_some h
  obtain ⟨rest, hdrop, hend⟩ := Option.bind_eq_some_iff.1 hu
  obtain ⟨p, hp, rfl⟩ := Option.map_eq_some_iff.1 hend
  obtain ⟨front, hfront, rfl⟩ := dropFolded?_eq_some_iff.1 hdrop
  have hpath : (front ++ rest).take extension.length = front := by
    rw [hfront.length_eq, List.take_left]
  exact ⟨rest, by rw [hpath], ⟨extension, hmem, by rw [hpath]; exact hfront⟩, hp⟩

/-- An ending behind which the reference ends is read. -/
theorem IsEnding.read {r : List Char × List Char} (h : IsEnding e)
    (hend : readEnd mark rest = some r) : readExtension mark (e ++ rest) = some ⟨e, r.1, r.2⟩ := by
  obtain ⟨extension, hmem, hfolds⟩ := h
  have found : readExtension mark (e ++ rest) ≠ none := by
    intro hnone
    have := List.findSome?_eq_none_iff.1 hnone extension hmem
    rw [hfolds.drop] at this
    simp [hend] at this
  obtain ⟨u, hu⟩ := Option.ne_none_iff_exists'.1 found
  obtain ⟨rest', hsame, hending, hend'⟩ := readExtension_sound hu
  -- there is only one ending at the front, and with it the rest is the same
  obtain ⟨hpath, rfl⟩ := IsEnding.unique ⟨extension, hmem, hfolds⟩ hending hsame
  obtain rfl := Option.some.inj (hend.symm.trans hend')
  rw [hu, hpath]

/-- What is read is a name and an ending behind which the reference ends. -/
theorem readPath_sound (h : readPath mark started s = some u) :
    ∃ name ending rest, s = name ++ (ending ++ rest) ∧ u.path = name ++ ending ∧
      (started = false → name ≠ []) ∧ (∀ c ∈ name, isPathChar c = true) ∧ IsEnding ending ∧
      readEnd mark rest = some (u.tail, u.after) := by
  induction s generalizing started u with
  | nil => cases h
  | cons c s ih =>
    rw [readPath, Option.or_eq_some_iff] at h
    rcases h with h | ⟨-, h⟩
    · cases started with
      | false => cases h
      | true =>
        obtain ⟨rest, hs, hending, hend⟩ := readExtension_sound h
        exact ⟨[], u.path, rest, hs, rfl, nofun, nofun, hending, hend⟩
    · split at h
      · rename_i hc
        obtain ⟨u', hu', rfl⟩ := Option.map_eq_some_iff.1 h
        obtain ⟨name, ending, rest, hs, hpath, -, hname, hending, hend⟩ := ih hu'
        refine ⟨c :: name, ending, rest, by rw [hs]; rfl, by simp [hpath], by simp, ?_, hending,
          hend⟩
        exact List.forall_mem_cons.2 ⟨hc, hname⟩
      · cases h

/-- Wherever the reference could end behind a name and an ending, a path is read, and it goes no
further. -/
theorem readPath_complete {name ending : List Char} {r : List Char × List Char}
    (hstarted : started = false → name ≠ []) (hname : ∀ c ∈ name, isPathChar c = true)
    (hending : IsEnding ending) (hend : readEnd mark rest = some r) :
    ∃ u, readPath mark started (name ++ (ending ++ rest)) = some u ∧ u.path <+: name ++ ending := by
  induction name generalizing started with
  | nil =>
    obtain rfl : started = true := by simpa using hstarted
    have found := hending.read hend
    cases hs : ending ++ rest with
    | nil =>
      have := hending.length
      simp [(List.append_eq_nil_iff.1 hs).1] at this
    | cons c s =>
      rw [hs] at found
      refine ⟨⟨ending, r.1, r.2⟩, ?_, List.prefix_refl _⟩
      rw [List.nil_append, readPath, if_pos rfl, found]
      rfl
  | cons c name ih =>
    obtain ⟨hc, hname⟩ := List.forall_mem_cons.1 hname
    have later : true = false → name ≠ [] := nofun
    obtain ⟨u, hu, hpath⟩ := ih later hname
    rw [List.cons_append, readPath, if_pos hc, hu]
    cases hfirst :
      (if started then readExtension mark (c :: (name ++ (ending ++ rest))) else none) with
    | none => exact ⟨{ u with path := c :: u.path }, rfl, List.cons_prefix_cons.2 ⟨rfl, hpath⟩⟩
    | some v =>
      -- an ending in the front of the name is not longer than the ending and a character
      refine ⟨v, rfl, ?_⟩
      cases started with
      | false => cases hfirst
      | true =>
        obtain ⟨rest', hs, hending', -⟩ := readExtension_sound hfirst
        have hfront : v.path <+: c :: (name ++ (ending ++ rest)) := hs ▸ List.prefix_append _ _
        apply List.prefix_of_prefix_length_le hfront
        · rw [← List.append_assoc, ← List.cons_append, ← List.cons_append]
          exact List.prefix_append _ _
        · have := hending.length
          have := hending'.length
          simp only [List.length_append, List.length_cons]
          omega

/-- What is read as a path is the path of an image. -/
theorem readPath_image (h : readPath mark false s = some u) :
    IsImagePath u.path ∧
      ∃ rest, s = u.path ++ rest ∧ readEnd mark rest = some (u.tail, u.after) := by
  obtain ⟨name, ending, rest, hs, hpath, hne, hname, hending, hend⟩ := readPath_sound h
  refine ⟨⟨name, ending, hpath, hne rfl, hname, hending⟩, rest, ?_, hend⟩
  rw [hs, hpath, List.append_assoc]

/-- The path of an image is read, or a front of it. -/
theorem IsImagePath.read {r : List Char × List Char} (h : IsImagePath p)
    (hend : readEnd mark rest = some r) :
    ∃ u, readPath mark false (p ++ rest) = some u ∧ u.path <+: p := by
  obtain ⟨name, ending, rfl, hne, hname, hending⟩ := h
  rw [List.append_assoc]
  exact readPath_complete (fun _ => hne) hname hending hend

/-! ## What follows the opening -/

theorem isBlank_of_isQuoteMark (hq : isQuoteMark q = true) : isBlank q = false := by
  simp only [isQuoteMark, Bool.or_eq_true, beq_iff_eq] at hq
  rcases hq with rfl | rfl <;> decide

theorem isPathChar_of_isQuoteMark (hq : isQuoteMark q = true) : isPathChar q = false := by
  simp [isPathChar, hq]

theorem IsImagePath.not_mem {c : Char} (h : IsImagePath p) (hc : isPathChar c = false) : c ∉ p :=
  fun hmem => by simpa [hc] using h.pathChar c hmem

/-- A path is more than blanks. -/
theorem IsImagePath.not_allBlank (h : IsImagePath p) : ¬ AllBlank p := by
  obtain ⟨name, ending, rfl, -, -, hending⟩ := h
  obtain ⟨c, hc⟩ := List.exists_mem_of_ne_nil ending hending.ne_nil
  intro hblank
  simpa [(hending.bare c hc).2] using hblank c (List.mem_append_right name hc)

/-- In quotes the path is all that stands in them but for blanks behind it. -/
theorem readPath_quoted_sound (hq : isQuoteMark q = true) (hw : q ∉ w)
    (h : readPath (some q) false (w ++ q :: s) = some u) :
    IsImagePath (trimEnd w) ∧ u.path = trimEnd w ∧ readTail s = some (u.tail, u.after) := by
  have hink := isBlank_of_isQuoteMark hq
  obtain ⟨himage, rest, hs, hend⟩ := readPath_image h
  obtain ⟨gap, rest, rfl, hgap, htail⟩ := (readEnd_some_iff hink).1 hend
  -- neither the path nor a blank is the quote, so the quote is the one that closes
  have hnot : q ∉ u.path ++ gap := by
    intro hmem
    rcases List.mem_append.1 hmem with hmem | hmem
    · exact himage.not_mem (isPathChar_of_isQuoteMark hq) hmem
    · simpa [hink] using hgap q hmem
  rw [← List.append_assoc] at hs
  obtain ⟨rfl, rfl⟩ := split_unique hw hnot hs
  rw [himage.trimEnd_append hgap]
  exact ⟨himage, rfl, htail⟩

theorem readPath_quoted_iff (hq : isQuoteMark q = true) (hw : q ∉ w) :
    readPath (some q) false (w ++ q :: s) = some u ↔
      IsImagePath (trimEnd w) ∧ u.path = trimEnd w ∧ readTail s = some (u.tail, u.after) := by
  refine ⟨readPath_quoted_sound hq hw, ?_⟩
  rintro ⟨himage, hpath, htail⟩
  obtain ⟨gap, hgap, hsplit⟩ := exists_trimEnd w
  have hend : readEnd (some q) (gap ++ q :: s) = some (u.tail, u.after) :=
    (readEnd_some_iff (isBlank_of_isQuoteMark hq)).2 ⟨gap, s, rfl, hgap, htail⟩
  obtain ⟨v, hv, -⟩ := himage.read hend
  rw [← List.append_assoc, ← hsplit] at hv
  obtain ⟨-, hvpath, hvtail⟩ := readPath_quoted_sound hq hw hv
  rw [htail, Option.some.injEq, Prod.mk.injEq] at hvtail
  rw [hv, UrlText.ext (hvpath.trans hpath.symm) hvtail.1.symm hvtail.2.symm]

/-- A reference in quotes, with blanks in front of them. -/
theorem readInside_quoted_iff (hgap : AllBlank gap) (hq : isQuoteMark q = true) (hw : q ∉ w) :
    readInside (gap ++ q :: (w ++ q :: s)) = some u ↔
      IsImagePath (trimEnd w) ∧ u.path = trimEnd w ∧ readTail s = some (u.tail, u.after) := by
  rw [← readPath_quoted_iff hq hw]
  have hstop := isPathChar_of_isQuoteMark hq
  -- a path cannot start with blanks and go on with a quote
  have hplain : ∀ gap, AllBlank gap → readPath none false (gap ++ q :: (w ++ q :: s)) = none := by
    intro gap hgap
    rw [Option.eq_none_iff_forall_ne_some]
    intro v hv
    obtain ⟨himage, rest, hs, -⟩ := readPath_image hv
    obtain ⟨es, rfl, -⟩ := front_of_notMem (himage.not_mem hstop) hs.symm
    exact himage.not_allBlank fun c hc => hgap c (List.mem_append_left es hc)
  induction gap with
  | nil =>
    have hink := isBlank_of_isQuoteMark hq
    have hnone : readPath none false (q :: (w ++ q :: s)) = none := hplain [] nofun
    rw [List.nil_append, readInside, hnone, Option.or_none, if_neg (by simp [hink]), if_pos hq]
  | cons c gap ih =>
    have hnone : readPath none false (c :: (gap ++ q :: (w ++ q :: s))) = none :=
      hplain (c :: gap) hgap
    obtain ⟨hc, hgap⟩ := List.forall_mem_cons.1 hgap
    rw [List.cons_append, readInside, if_pos hc, hnone, Option.or_none]
    exact ih hgap

/-- Blanks in front of a reference do not matter. -/
theorem readInside_gap (hgap : AllBlank gap) (h : readInside s = some u) :
    readInside (gap ++ s) = some u := by
  induction gap with
  | nil => exact h
  | cons c gap ih =>
    obtain ⟨hc, hgap⟩ := List.forall_mem_cons.1 hgap
    rw [List.cons_append, readInside, if_pos hc, ih hgap, Option.some_or]

theorem readInside_ink {c : Char} (hblank : isBlank c = false) (hquote : isQuoteMark c = false) :
    readInside (c :: s) = readPath none false (c :: s) := by
  simp [readInside, hblank, hquote]

theorem isQuoteMark_of_isPathChar {c : Char} (h : isPathChar c = true) : isQuoteMark c = false := by
  simp only [isPathChar, Bool.and_eq_true, Bool.not_eq_true'] at h
  exact h.1.1

/-- Without quotes a front of the path is read, and all behind it up to the bracket but blanks is
tail. -/
theorem IsImagePath.readInside (h : IsImagePath p) (hhead : ∀ c ∈ p.head?, isBlank c = false)
    (hgap : AllBlank gap) (hclose : ')' ∈ rest) :
    ∃ u more, Background.readInside (gap ++ (p ++ rest)) = some u ∧ IsImagePath u.path ∧
      p = u.path ++ more ∧ trimStart (more ++ rest) = u.tail ++ ')' :: u.after := by
  obtain ⟨r, hend⟩ := exists_readEnd_none hclose
  obtain ⟨u, hu, more, rfl⟩ := h.read hend
  obtain ⟨himage, rest', hs, hend'⟩ := readPath_image hu
  rw [List.append_assoc] at hs
  obtain rfl := List.append_cancel_left hs
  refine ⟨u, more, readInside_gap hgap ?_, himage, rfl, readTail_sound hend'⟩
  cases hp : u.path ++ more with
  | nil => exact absurd (hp ▸ nofun) h.not_allBlank
  | cons c p =>
    have hc : isBlank c = false := hhead c (by simp [hp])
    have hpath : isPathChar c = true := h.pathChar c (by simp [hp])
    rw [hp] at hu
    exact (readInside_ink hc (isQuoteMark_of_isPathChar hpath)).trans hu

/-- A reference without quotes and blanks in it is read as the shortest front that is a path and
what follows that. -/
theorem readInside_bare {post : List Char} (hw : Bare w)
    (h : readInside (w ++ ')' :: post) = some u) :
    IsImagePath u.path ∧ w = u.path ++ u.tail ∧ u.after = post ∧
      ∀ v, v <+: u.path → IsImagePath v → v = u.path := by
  have hread : readPath none false (w ++ ')' :: post) = some u := by
    cases w with
    | nil => exact h
    | cons c w =>
      obtain ⟨hpath, hblank⟩ := hw c List.mem_cons_self
      exact (readInside_ink hblank (isQuoteMark_of_isPathChar hpath)).symm.trans h
  obtain ⟨himage, rest, hs, hend⟩ := readPath_image hread
  obtain ⟨es, hsplit, rfl⟩ := front_of_notMem (himage.not_mem (by decide)) hs.symm
  have hink : ∀ c ∈ (es ++ ')' :: post).head?, isBlank c = false := by
    cases es with
    | nil =>
      rintro c ⟨⟩
      decide
    | cons e es => simpa using (hw e (by simp [hsplit])).2
  have hclose : ')' ∉ es := fun hmem => by
    simpa [isPathChar] using (hw ')' (by rw [hsplit]; exact List.mem_append_right _ hmem)).1
  rw [readEnd_none, trimStart_eq_self hink, readTail_append hclose, Option.some.injEq,
    Prod.mk.injEq] at hend
  refine ⟨himage, by rw [← hend.1]; exact hsplit, hend.2.symm, ?_⟩
  intro v hv hvimage
  -- whatever is a path in front of this one would have been read
  obtain ⟨more, hmore⟩ := hv
  have hclose : ')' ∈ more ++ (es ++ ')' :: post) := by simp
  obtain ⟨r, hr⟩ := exists_readEnd_none hclose
  obtain ⟨u', hu', hpre⟩ := hvimage.read hr
  rw [← List.append_assoc, hmore, ← hs, hread] at hu'
  cases hu'
  exact (List.IsPrefix.eq_of_length_le ⟨more, hmore⟩ hpre.length_le)

/-! ## Where a value has a reference -/

/-- The first character of an opening is none of the others, and neither is the last. -/
theorem opening_chars {opening : List Char} (h : Folds urlOpening opening) :
    ∃ a b c d, opening = [a, b, c, d] ∧
      (foldsTo 'u' a = true ∧ foldsTo 'r' b = true ∧ foldsTo 'l' c = true ∧ foldsTo '(' d = true) ∧
      (foldsTo 'u' b = false ∧ foldsTo 'u' c = false ∧ foldsTo 'u' d = false) ∧
      (foldsTo '(' a = false ∧ foldsTo '(' b = false ∧ foldsTo '(' c = false) := by
  have apart : ∀ {m m' x : Char}, foldsTo m x = true → m.toNat < 128 → m'.toNat < 128 → m ≠ m' →
      foldsTo m' x = false := by
    intro m m' x hfold hm hm' hne
    rw [Bool.eq_false_iff]
    exact fun hfold' => hne (foldsTo_unique hm hm' hfold hfold')
  rcases h with _ | ⟨ha, _ | ⟨hb, _ | ⟨hc, _ | ⟨hd, ⟨⟩⟩⟩⟩⟩
  refine ⟨_, _, _, _, rfl, ⟨ha, hb, hc, hd⟩, ⟨?_, ?_, ?_⟩, ?_, ?_, ?_⟩
  · exact apart hb (by decide) (by decide) (by decide)
  · exact apart hc (by decide) (by decide) (by decide)
  · exact apart hd (by decide) (by decide) (by decide)
  · exact apart ha (by decide) (by decide) (by decide)
  · exact apart hb (by decide) (by decide) (by decide)
  · exact apart hc (by decide) (by decide) (by decide)

/-- Only a bracket ends an opening. -/
theorem eq_of_foldsTo_bracket {c : Char} (h : foldsTo '(' c = true) : c = '(' := by
  have all : (forms '(').all (fun c => !foldsTo '(' c || c == '(') = true := by decide
  simpa [h] using List.all_eq_true.1 all c (mem_forms h)

theorem holdsFolded_of_notMem (h : '(' ∉ s) : holdsFolded urlOpening s = false := by
  rw [Bool.eq_false_iff, ne_eq, holdsFolded_iff]
  rintro ⟨opening, hopening, hin⟩
  obtain ⟨a, b, c, d, rfl, ⟨-, -, -, hd⟩, -⟩ := opening_chars hopening
  obtain rfl := eq_of_foldsTo_bracket hd
  exact h (hin.subset (by simp))

/-- What starts in front of an opening has to end there. -/
theorem dropFolded?_opening {opening : List Char} (hopening : Folds urlOpening opening) (x : Char)
    (pre inside : List Char) :
    (dropFolded? urlOpening (x :: (pre ++ (opening ++ inside)))).isSome =
      (dropFolded? urlOpening (x :: pre)).isSome := by
  obtain ⟨a, b, c, d, rfl, -, -, last⟩ := opening_chars hopening
  rcases pre with _ | ⟨y, _ | ⟨z, _ | ⟨w, pre⟩⟩⟩ <;>
    simp only [List.nil_append, List.cons_append, urlOpening, dropFolded?, last] <;>
    (repeat' split) <;> simp_all

/-- An opening is met once, and reaches neither back nor on. -/
theorem countFolded_opening {opening : List Char} (hopening : Folds urlOpening opening)
    (pre inside : List Char) :
    countFolded urlOpening (pre ++ (opening ++ inside)) =
      countFolded urlOpening pre + countFolded urlOpening inside + 1 := by
  induction pre with
  | nil =>
    obtain ⟨a, b, c, d, rfl, -, first, -⟩ := opening_chars hopening
    have found : dropFolded? urlOpening (a :: b :: c :: d :: inside) = some inside :=
      hopening.drop inside
    have skips : ∀ {x}, foldsTo 'u' x = false → ∀ s, dropFolded? urlOpening (x :: s) = none := by
      intro x hx s
      rw [urlOpening, dropFolded?, if_neg (by simp [hx])]
    change countFolded urlOpening (a :: b :: c :: d :: inside) = _
    rw [countFolded_cons, found, countFolded_cons, skips first.1, countFolded_cons, skips first.2.1,
      countFolded_cons, skips first.2.2]
    change 1 + (0 + (0 + (0 + countFolded urlOpening inside))) = 0 + _ + 1
    omega
  | cons x pre ih =>
    rw [List.cons_append, countFolded_cons, dropFolded?_opening hopening, ih, countFolded_cons]
    omega

/-- The first reference is the one behind the only opening. -/
theorem findUrl_opening {opening pre inside : List Char} (hopening : Folds urlOpening opening)
    (hpre : holdsFolded urlOpening pre = false) (hinside : holdsFolded urlOpening inside = false) :
    findUrl (pre ++ (opening ++ inside)) = readInside inside := by
  have before : ∀ s, s <:+ pre → s ≠ [] →
      (dropFolded? urlOpening (s ++ (opening ++ inside))).bind readInside = none := by
    intro s hs hne
    obtain ⟨x, s, rfl⟩ := List.exists_cons_of_ne_nil hne
    have nothing := dropFolded?_opening hopening x s inside
    rw [dropFolded?_of_suffix hpre hs, Option.isSome_none, Option.isSome_eq_false_iff,
      Option.isNone_iff_eq_none] at nothing
    rw [List.cons_append, nothing]
    rfl
  rw [findUrl, firstWithin_append before]
  have once := countFolded_opening hopening [] inside
  obtain ⟨a, b, c, d, rfl, -⟩ := opening_chars hopening
  have found : dropFolded? urlOpening (a :: ([b, c, d] ++ inside)) = some inside :=
    hopening.drop inside
  rw [List.nil_append, List.cons_append, countFolded_cons, found,
    countFolded_eq_zero_iff.2 hinside] at once
  have behind : holdsFolded urlOpening ([b, c, d] ++ inside) = false := by
    rw [← countFolded_eq_zero_iff]
    simpa [countFolded, dropFolded?, urlOpening] using once
  rw [List.cons_append, firstWithin, found]
  have nothing : firstWithin (fun s => (dropFolded? urlOpening s).bind readInside)
      ([b, c, d] ++ inside) = none := by
    rw [firstWithin_eq_none_iff]
    intro s hs
    rw [dropFolded?_of_suffix behind hs]
    rfl
  rw [nothing, Option.or_none]
  rfl

end Spriting.Background

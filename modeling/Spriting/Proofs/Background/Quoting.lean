import Spriting.Proofs.Background.Deciding

/-!
# References with and without quotes

Which quotes stand around a reference makes no difference, but whether any do does: without them
the path is followed by a tail, and in them by nothing, for what comes behind the path has to be
the closing quote.

* `verdict_plain`, `verdict_quoted`: what the two ways to write a reference say;
* `findImage_quoting`: when they are the same to every rule.
-/

namespace Spriting.Background

open Css Text

variable {pre opening w post : List Char} {q : Char}

/-- A value with a reference to `w` in it, between `quote` and `quote`. -/
def reference (pre opening quote w post : List Char) : String :=
  String.ofList (pre ++ (opening ++ (quote ++ (w ++ (quote ++ ')' :: post)))))

/-! ## What a reference says -/

/-- There is an opening in such a value besides its own only in front of it or behind it. -/
theorem verdict_reference {quote : List Char} (hopening : Folds urlOpening opening)
    (hquote : '(' ∉ quote) (hw : Bare w) (pre post : List Char) :
    verdict (reference pre opening quote w post).toList =
      if holdsFolded urlOpening pre || holdsFolded urlOpening post then .leave
      else .ofReading (readInside (quote ++ (w ++ (quote ++ ')' :: post)))) := by
  have inner : holdsFolded urlOpening (quote ++ (w ++ quote)) = false := by
    apply holdsFolded_of_notMem
    simp only [List.mem_append, not_or]
    exact ⟨hquote, fun hmem => by simpa [isPathChar] using (hw _ hmem).1, hquote⟩
  have inside : holdsFolded urlOpening (quote ++ (w ++ (quote ++ ')' :: post))) =
      holdsFolded urlOpening post := by
    rw [← List.append_assoc w, ← List.append_assoc quote, Bool.eq_iff_iff,
      holdsFolded_separated (by decide), inner]
    simp
  rw [reference, String.toList_ofList, verdict_opening hopening, inside]

/-- In quotes the path is all that stands there, and it has no tail. -/
theorem readInside_quoted (hq : isQuoteMark q = true) (hw : Bare w) (u : UrlText) :
    readInside (q :: (w ++ q :: (')' :: post))) = some u ↔ IsImagePath w ∧ u = ⟨w, [], post⟩ := by
  have hnot : q ∉ w := fun hmem => by
    simpa [isPathChar_of_isQuoteMark hq] using (hw q hmem).1
  have htrim : trimEnd w = w :=
    trimEnd_eq_self fun c hc => (hw c (List.mem_of_mem_getLast? hc)).2
  have nothing : AllBlank [] := nofun
  have hread : readInside ([] ++ q :: (w ++ q :: (')' :: post))) = some u ↔ _ :=
    readInside_quoted_iff nothing hq hnot
  rw [List.nil_append, htrim] at hread
  rw [hread]
  obtain ⟨path, tail, after⟩ := u
  simp [readTail, eq_comm]

theorem readInside_quoted_none (hq : isQuoteMark q = true) (hw : Bare w) (h : ¬ IsImagePath w) :
    readInside (q :: (w ++ q :: (')' :: post))) = none := by
  rw [Option.eq_none_iff_forall_ne_some]
  intro u hu
  exact h ((readInside_quoted hq hw u).1 hu).1

/-- Without quotes something is read where a path stands in front. -/
theorem exists_readInside_bare {v : List Char} (hw : Bare w) (hv : v <+: w) (h : IsImagePath v) :
    ∃ u, readInside (w ++ ')' :: post) = some u := by
  obtain ⟨more, rfl⟩ := hv
  have hhead : ∀ c ∈ v.head?, isBlank c = false := fun c hc =>
    (hw c (List.mem_append_left more (List.mem_of_mem_head? hc))).2
  have nothing : AllBlank [] := nofun
  have hclose : ')' ∈ more ++ ')' :: post := by simp
  obtain ⟨u, -, hu, -⟩ := h.readInside hhead nothing hclose
  rw [List.nil_append, ← List.append_assoc] at hu
  exact ⟨u, hu⟩

/-- Bare texts name the same image only if they are the same. -/
theorem image_inj {v : List Char} (hv : Bare v) (hw : Bare w)
    (h : Verdict.image (String.ofList (trim v)) = .image (String.ofList (trim w))) : v = w := by
  have whole : ∀ {w}, Bare w → trim w = w := fun hw => trim_eq_self
    (fun c hc => (hw c (List.mem_of_mem_head? hc)).2)
    (fun c hc => (hw c (List.mem_of_mem_getLast? hc)).2)
  rw [whole hv, whole hw, Verdict.image.injEq, String.ofList_inj] at h
  exact h

/-- A tail that follows a path makes a difference in quotes, unless with the tail it is a path too
and the mark behind the reference makes both of no use. -/
theorem ofReading_tail_iff {u : UrlText} (hq : isQuoteMark q = true) (hw : Bare w)
    (hpath : u.path <+: w) (htail : u.path ≠ w) (hafter : u.after = post) :
    Verdict.ofReading (some u) = .ofReading (readInside (q :: (w ++ q :: (')' :: post)))) ↔
      IsImagePath w ∧ holdsFolded ignoreMark post = true := by
  rw [Verdict.ofReading, hafter]
  by_cases hquoted : IsImagePath w
  · rw [(readInside_quoted hq hw _).2 ⟨hquoted, rfl⟩, Verdict.ofReading, List.nil_append,
      and_iff_right hquoted]
    by_cases hmark : holdsFolded ignoreMark post = true
    · have hmore : holdsFolded ignoreMark (u.tail ++ post) = true :=
        holdsFolded_of_infix hmark (List.suffix_append u.tail post).isInfix
      rw [if_pos hmark, if_pos hmore]
      exact iff_of_true rfl hmark
    · rw [if_neg hmark]
      refine iff_of_false (fun hsame => ?_) hmark
      split at hsame
      · cases hsame
      · exact htail (image_inj (fun c hc => hw c (hpath.subset hc)) hw hsame)
  · rw [readInside_quoted_none hq hw hquoted, Verdict.ofReading]
    refine iff_of_false (fun hsame => ?_) fun h => hquoted h.1
    split at hsame <;> cases hsame

/-- The two ways to write a reference say the same if no front of it is a path by itself, or if the
mark behind it makes both of no use. -/
theorem ofReading_eq_iff (hq : isQuoteMark q = true) (hw : Bare w) :
    Verdict.ofReading (readInside (w ++ ')' :: post)) =
        .ofReading (readInside (q :: (w ++ q :: (')' :: post)))) ↔
      (∀ v, v <+: w → IsImagePath v → v = w) ∨
        IsImagePath w ∧ holdsFolded ignoreMark post = true := by
  cases hplain : readInside (w ++ ')' :: post) with
  | none =>
    have nothing : ∀ v, v <+: w → ¬ IsImagePath v := fun v hv hvimage => by
      obtain ⟨u, hu⟩ := exists_readInside_bare hw hv hvimage
      cases hplain.symm.trans hu
    rw [readInside_quoted_none hq hw (nothing w List.prefix_rfl)]
    exact iff_of_true rfl (.inl fun v hv hvimage => absurd hvimage (nothing v hv))
  | some u =>
    obtain ⟨himage, hsplit, hafter, hshortest⟩ := readInside_bare hw hplain
    by_cases hwhole : u.path = w
    · -- there is no tail, and both read the same
      have htail : u.tail = [] := by
        rw [hwhole] at hsplit
        exact List.append_right_eq_self.1 hsplit.symm
      have hu : u = ⟨w, [], post⟩ := by rw [← hwhole, ← htail, ← hafter]
      rw [(readInside_quoted hq hw u).2 ⟨hwhole ▸ himage, hu⟩]
      exact iff_of_true rfl (.inl (hwhole ▸ hshortest))
    · have hpath : u.path <+: w := ⟨u.tail, hsplit.symm⟩
      have hlonger : ¬ ∀ v, v <+: w → IsImagePath v → v = w := fun hall =>
        hwhole (hall u.path hpath himage)
      rw [or_iff_right hlonger, ofReading_tail_iff hq hw hpath hwhole hafter]

/-- **What quotes change.** Let a path and its tail be written without blanks.  Whichever quotes
stand around them, every rule has the same image.  But without quotes every rule has that image
exactly if the value has another reference, or if no proper front of what is written is a path, or
if all of it is a path and the mark behind the reference keeps it out.  So where a path is followed
by a query or a fragment it is found without quotes, and in quotes it is not. -/
theorem findImage_quoting (hopening : Folds urlOpening opening) (hw : Bare w)
    (pre post : List Char) :
    Alike (reference pre opening ['"'] w post) (reference pre opening ['\''] w post) ∧
    ∀ q, isQuoteMark q = true →
      (Alike (reference pre opening [] w post) (reference pre opening [q] w post) ↔
        holdsFolded urlOpening pre = true ∨ holdsFolded urlOpening post = true ∨
        (∀ v, v <+: w → IsImagePath v → v = w) ∨
        IsImagePath w ∧ holdsFolded ignoreMark post = true) := by
  have hdouble : isQuoteMark '"' = true := by decide
  have hsingle : isQuoteMark '\'' = true := by decide
  constructor
  · have same : readInside ('"' :: (w ++ '"' :: (')' :: post))) =
        readInside ('\'' :: (w ++ '\'' :: (')' :: post))) :=
      Option.ext fun u =>
        (readInside_quoted hdouble hw u).trans (readInside_quoted hsingle hw u).symm
    rw [alike_iff, verdict_reference hopening (by decide) hw,
      verdict_reference hopening (by decide) hw]
    simp only [List.singleton_append, same]
  · intro q hq
    have hbracket : '(' ∉ [q] := by
      rw [List.mem_singleton]
      rintro rfl
      exact absurd hq (by decide)
    rw [alike_iff, verdict_reference hopening (by decide) hw,
      verdict_reference hopening hbracket hw]
    simp only [List.nil_append, List.singleton_append]
    by_cases hmore : (holdsFolded urlOpening pre || holdsFolded urlOpening post) = true
    · rw [if_pos hmore, if_pos hmore]
      rw [Bool.or_eq_true] at hmore
      exact iff_of_true rfl (hmore.imp_right .inl)
    · rw [if_neg hmore, if_neg hmore, ofReading_eq_iff hq hw]
      simp only [Bool.or_eq_true, not_or, Bool.not_eq_true] at hmore
      simp [hmore.1, hmore.2]

/-- A query is the tail of a path without quotes, and in quotes makes a path of nothing. -/
theorem findImage_quoting_query :
    Folds urlOpening "url(".toList ∧ Bare "dot.png?v=1".toList ∧
    Alike (reference [] "url(".toList ['"'] "dot.png?v=1".toList [])
      (reference [] "url(".toList ['\''] "dot.png?v=1".toList []) ∧
    ¬ Alike (reference [] "url(".toList [] "dot.png?v=1".toList [])
      (reference [] "url(".toList ['"'] "dot.png?v=1".toList []) := by
  have hopening : Folds urlOpening "url(".toList := by decide
  have hbare : Bare "dot.png?v=1".toList := by decide
  obtain ⟨halike, hquotes⟩ := findImage_quoting hopening hbare [] []
  refine ⟨hopening, hbare, halike, ?_⟩
  rw [hquotes '"' (by decide)]
  rintro (h | h | h | ⟨-, h⟩)
  · exact absurd h (by decide)
  · exact absurd h (by decide)
  · have hpath : IsImagePath "dot.png".toList :=
      ⟨"dot".toList, ".png".toList, by decide, by decide, List.all_eq_true.1 (by decide),
        ".png".toList, by decide, by decide⟩
    exact absurd (h _ ⟨"?v=1".toList, by decide⟩ hpath) (by decide)
  · exact absurd h (by decide)

/-- A rule with one background. -/
def backgroundRule (value : String) : Rule where
  selectors := ["a"]
  body := [.declaration { property := "background", value, id := 2 }]
  id := 1

/-- The same reference shows an image without quotes and none in them. -/
theorem findImage_query_quoted :
    findImage (backgroundRule "url(dot.png?v=1)") = some ⟨"dot.png", 1, 2, ["a"]⟩ ∧
    findImage (backgroundRule "url(\"dot.png?v=1\")") = none ∧
    findImage (backgroundRule "url('dot.png?v=1')") = none := by
  decide +kernel

end Spriting.Background

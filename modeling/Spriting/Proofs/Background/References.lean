import Spriting.Proofs.Background.UrlReading

/-!
# Where a value refers to an image

A value refers to an image where it has an opening, blanks, the path of an image between two quotes
of one kind or between none, blanks in front of the closing quote, and a tail up to a closing
bracket.  Reading finds something wherever a value has all that, and nothing else.

* `readInside_matches`, `Matches.exists_readInside`: what is read behind an opening;
* `findUrl_isSome_iff`: which values have a reference.
-/

namespace Spriting.Background

open Text

variable {mark : Option Char} {s rest tail after value : List Char} {u : UrlText}

/-- `s` starts with what stands in a reference behind its opening, and `u` tells its parts. -/
def Matches (s : List Char) (u : UrlText) : Prop :=
  ∃ (gap gap' : List Char) (mark : Option Char),
    s = gap ++ (mark.toList ++ (u.path ++ (gap' ++ (mark.toList ++ (u.tail ++ ')' :: u.after))))) ∧
    AllBlank gap ∧ (∀ q ∈ mark, isQuoteMark q = true) ∧ IsImagePath u.path ∧ AllBlank gap' ∧
    ')' ∉ u.tail

/-- A value has a reference to an image. -/
def Refers (value : List Char) : Prop :=
  ∃ pre opening inside u, value = pre ++ (opening ++ inside) ∧ Folds urlOpening opening ∧
    Matches inside u

/-! ## The end of a reference -/

theorem readTail_notMem (h : readTail s = some (tail, after)) : ')' ∉ tail := by
  induction s generalizing tail with
  | nil => cases h
  | cons c s ih =>
    rw [readTail] at h
    split at h
    · cases h
      exact List.not_mem_nil
    · rename_i hc
      obtain ⟨⟨tail', after'⟩, hrest, hp⟩ := Option.map_eq_some_iff.1 h
      cases hp
      exact List.not_mem_cons_of_ne_of_not_mem (Ne.symm hc) (ih hrest)

theorem readEnd_sound (hmark : ∀ q ∈ mark, isQuoteMark q = true)
    (h : readEnd mark rest = some (tail, after)) :
    ∃ gap, rest = gap ++ (mark.toList ++ (tail ++ ')' :: after)) ∧ AllBlank gap ∧ ')' ∉ tail := by
  cases mark with
  | none =>
    obtain ⟨gap, hgap, hrest⟩ := exists_trimStart rest
    rw [readEnd_none] at h
    exact ⟨gap, by rw [hrest, readTail_sound h]; rfl, hgap, readTail_notMem h⟩
  | some q =>
    have hink := isBlank_of_isQuoteMark (hmark q rfl)
    obtain ⟨gap, behind, rfl, hgap, hread⟩ := (readEnd_some_iff hink).1 h
    exact ⟨gap, by rw [readTail_sound hread]; rfl, hgap, readTail_notMem hread⟩

theorem exists_readEnd {gap : List Char} (hmark : ∀ q ∈ mark, isQuoteMark q = true)
    (hgap : AllBlank gap) (tail after : List Char) :
    ∃ r, readEnd mark (gap ++ (mark.toList ++ (tail ++ ')' :: after))) = some r := by
  have hclose : ')' ∈ tail ++ ')' :: after := by simp
  cases mark with
  | none => exact exists_readEnd_none (List.mem_append_right gap hclose)
  | some q =>
    obtain ⟨r, hr⟩ := exists_readTail hclose
    exact ⟨r, (readEnd_some_iff (isBlank_of_isQuoteMark (hmark q rfl))).2 ⟨gap, _, rfl, hgap, hr⟩⟩

/-! ## Behind the opening -/

theorem readPath_matches (hmark : ∀ q ∈ mark, isQuoteMark q = true)
    (h : readPath mark false s = some u) : Matches (mark.toList ++ s) u := by
  obtain ⟨himage, rest, rfl, hend⟩ := readPath_image h
  obtain ⟨gap', rfl, hgap', htail⟩ := readEnd_sound hmark hend
  exact ⟨[], gap', mark, rfl, nofun, hmark, himage, hgap', htail⟩

theorem Matches.blank_cons {c : Char} (hc : isBlank c = true) (h : Matches s u) :
    Matches (c :: s) u := by
  obtain ⟨gap, gap', mark, rfl, hgap, h⟩ := h
  exact ⟨c :: gap, gap', mark, rfl, List.forall_mem_cons.2 ⟨hc, hgap⟩, h⟩

/-- Nothing but references is read. -/
theorem readInside_matches (h : readInside s = some u) : Matches s u := by
  induction s with
  | nil => cases h
  | cons c s ih =>
    rw [readInside, Option.or_eq_some_iff] at h
    rcases h with h | ⟨-, h⟩
    · split at h
      · exact (ih h).blank_cons ‹_›
      · split at h
        · have hmark : ∀ q ∈ some c, isQuoteMark q = true := by
            rintro q ⟨⟩
            assumption
          exact readPath_matches hmark h
        · cases h
    · have hmark : ∀ q ∈ (none : Option Char), isQuoteMark q = true := by
        intro q hq
        cases hq
      exact readPath_matches hmark h

/-- Every reference is read, though not always as the same path. -/
theorem Matches.exists_readInside (h : Matches s u) : ∃ v, readInside s = some v := by
  obtain ⟨gap, gap', mark, rfl, hgap, hmark, hpath, hgap', -⟩ := h
  obtain ⟨r, hend⟩ := exists_readEnd hmark hgap' u.tail u.after
  obtain ⟨v, hv, -⟩ := hpath.read hend
  have here : ∃ v, readInside (mark.toList ++
      (u.path ++ (gap' ++ (mark.toList ++ (u.tail ++ ')' :: u.after))))) = some v := by
    cases mark with
    | none =>
      obtain ⟨c, path, hc⟩ := List.exists_cons_of_ne_nil (l := u.path) fun hnil =>
        hpath.not_allBlank (hnil ▸ nofun)
      rw [hc] at hv ⊢
      rw [Option.toList_none, List.nil_append, List.cons_append, readInside]
      cases hfirst : (if isBlank c then _ else _ : Option UrlText) with
      | none => exact ⟨v, hv⟩
      | some v' => exact ⟨v', rfl⟩
    | some q =>
      have hq := hmark q rfl
      have hink := isBlank_of_isQuoteMark hq
      refine ⟨v, ?_⟩
      rw [Option.toList_some, List.singleton_append, readInside, if_neg (by simp [hink]), if_pos hq]
      rw [Option.toList_some] at hv
      rw [hv, Option.some_or]
  obtain ⟨v, hv⟩ := here
  exact ⟨v, readInside_gap hgap hv⟩

/-! ## In a value -/

/-- The values in which a reference is found are those that have one. -/
theorem findUrl_isSome_iff : (findUrl value).isSome = true ↔ Refers value := by
  rw [findUrl, firstWithin_isSome_iff]
  constructor
  · rintro ⟨pre, s, rfl, hs⟩
    obtain ⟨u, hu⟩ := Option.isSome_iff_exists.1 hs
    obtain ⟨inside, hdrop, hread⟩ := Option.bind_eq_some_iff.1 hu
    obtain ⟨opening, hopening, rfl⟩ := dropFolded?_eq_some_iff.1 hdrop
    exact ⟨pre, opening, inside, u, rfl, hopening, readInside_matches hread⟩
  · rintro ⟨pre, opening, inside, u, rfl, hopening, hmatches⟩
    obtain ⟨v, hv⟩ := hmatches.exists_readInside
    refine ⟨pre, opening ++ inside, rfl, ?_⟩
    rw [hopening.drop, Option.bind_some, hv]
    rfl

instance (value : List Char) : Decidable (Refers value) :=
  decidable_of_iff _ findUrl_isSome_iff

end Spriting.Background

import Spriting.Proofs.Background.Deciding

/-!
# References that are kept out

A rule has no image if the mark follows the path in the last declaration with a reference.  But
this is only so where a path is read: in quotes none is if the mark stands there with it, and then
an earlier declaration decides.

* `optsOut_opening_iff`: a value keeps a rule from having an image by what is read in it;
* `findImage_optOut`: which references keep a rule from having an image.
-/

namespace Spriting.Background

open Css Text

variable {pre opening inside gap p w rest tail post : List Char} {q : Char} {u : UrlText}

theorem Verdict.ofReading_leave_iff {read : Option UrlText} :
    Verdict.ofReading read = .leave ↔
      ∃ u, read = some u ∧ holdsFolded ignoreMark (u.tail ++ u.after) = true := by
  cases read with
  | none => simp [Verdict.ofReading]
  | some u => simp [Verdict.ofReading]

/-- A value with one opening keeps rules from having an image if what is read behind it has the
mark behind its path. -/
theorem optsOut_opening_iff (hopening : Folds urlOpening opening)
    (hone : countFolded urlOpening (pre ++ (opening ++ inside)) = 1) :
    OptsOut (pre ++ (opening ++ inside)) ↔
      ∃ u, readInside inside = some u ∧ holdsFolded ignoreMark (u.tail ++ u.after) = true := by
  rw [countFolded_opening hopening, Nat.add_eq_right, Nat.add_eq_zero_iff, countFolded_eq_zero_iff,
    countFolded_eq_zero_iff] at hone
  rw [optsOut_iff, verdict_opening hopening, hone.1, hone.2, ← Verdict.ofReading_leave_iff]
  rfl

/-- The mark is found behind the path, for it has no blank and no bracket. -/
theorem holdsFolded_ignoreMark (hrest : trimStart rest = tail ++ ')' :: post)
    (h : holdsFolded ignoreMark rest = true) : holdsFolded ignoreMark (tail ++ post) = true := by
  rw [← holdsFolded_trimStart (by decide) (by decide), hrest,
    holdsFolded_separated (by decide)] at h
  rcases h with h | h
  · exact holdsFolded_of_infix h (List.prefix_append tail post).isInfix
  · exact holdsFolded_of_infix h (List.suffix_append tail post).isInfix

/-- **What keeps a rule from having an image.** Let the last declaration of a rule with a reference
have exactly one.  If it refers to the path of an image without quotes and the mark stands anywhere
behind the path, then the rule has no image, whatever its earlier declarations are.  If it does so
in quotes, that is so exactly if nothing but the path and blanks stands in the quotes and the mark
stands behind them: a mark in the quotes hides the path, and an earlier declaration decides. -/
theorem findImage_optOut (hopening : Folds urlOpening opening) (pre inside : List Char)
    (hone : countFolded urlOpening (pre ++ (opening ++ inside)) = 1) :
    (∀ gap p rest, inside = gap ++ (p ++ rest) → AllBlank gap → IsImagePath p →
      (∀ c ∈ p.head?, isBlank c = false) → ')' ∈ rest → holdsFolded ignoreMark rest = true →
      OptsOut (pre ++ (opening ++ inside))) ∧
    ∀ gap q w tail post, inside = gap ++ q :: (w ++ q :: (tail ++ ')' :: post)) → AllBlank gap →
      isQuoteMark q = true → q ∉ w → ')' ∉ tail →
      (OptsOut (pre ++ (opening ++ inside)) ↔
        IsImagePath (trimEnd w) ∧ holdsFolded ignoreMark (tail ++ post) = true) := by
  rw [optsOut_opening_iff hopening hone]
  constructor
  · rintro gap p rest rfl hgap hpath hhead hclose hmark
    obtain ⟨u, more, hu, -, -, htail⟩ := hpath.readInside hhead hgap hclose
    have hbehind : holdsFolded ignoreMark (more ++ rest) = true :=
      holdsFolded_of_infix hmark (List.suffix_append more rest).isInfix
    exact ⟨u, hu, holdsFolded_ignoreMark htail hbehind⟩
  · rintro gap q w tail post rfl hgap hq hw htail
    have hread : ∀ u, readInside (gap ++ q :: (w ++ q :: (tail ++ ')' :: post))) = some u ↔
        IsImagePath (trimEnd w) ∧ u.path = trimEnd w ∧ tail = u.tail ∧ post = u.after := by
      intro u
      rw [readInside_quoted_iff hgap hq hw, readTail_append htail, Option.some.injEq, Prod.mk.injEq]
    constructor
    · rintro ⟨u, hu, hmark⟩
      obtain ⟨hpath, -, rfl, rfl⟩ := (hread u).1 hu
      exact ⟨hpath, hmark⟩
    · rintro ⟨hpath, hmark⟩
      exact ⟨⟨trimEnd w, tail, post⟩, (hread _).2 ⟨hpath, rfl, rfl, rfl⟩, hmark⟩

/-- The mark in the fragment keeps the image out without quotes, and does not in them. -/
theorem findImage_optOut_fragment :
    Folds urlOpening "url(".toList ∧
    countFolded urlOpening "url(bar.png#spriteignore)".toList = 1 ∧
    countFolded urlOpening "url(\"bar.png#spriteignore\")".toList = 1 ∧
    OptsOut "url(bar.png#spriteignore)".toList ∧
    ¬ OptsOut "url(\"bar.png#spriteignore\")".toList := by
  have hopening : Folds urlOpening "url(".toList := by decide
  have hplain : countFolded urlOpening "url(bar.png#spriteignore)".toList = 1 := by decide +kernel
  have hquoted : countFolded urlOpening "url(\"bar.png#spriteignore\")".toList = 1 := by
    decide +kernel
  have hpath : IsImagePath "bar.png".toList :=
    ⟨"bar".toList, ".png".toList, by decide, by decide, List.all_eq_true.1 (by decide),
      ".png".toList, by decide, by decide⟩
  obtain ⟨plain, -⟩ := findImage_optOut hopening [] "bar.png#spriteignore)".toList hplain
  obtain ⟨-, quoted⟩ := findImage_optOut hopening [] "\"bar.png#spriteignore\")".toList hquoted
  refine ⟨hopening, hplain, hquoted, ?_, ?_⟩
  · have hhead : ∀ c ∈ "bar.png".toList.head?, isBlank c = false := by
      rintro c ⟨⟩
      decide
    exact plain [] "bar.png".toList "#spriteignore)".toList (by decide) nofun hpath hhead
      (by decide) (by decide)
  · have hiff := quoted [] '"' "bar.png#spriteignore".toList [] [] (by decide) nofun (by decide)
      (by decide) nofun
    intro h
    exact absurd (hiff.1 h).2 (by decide)

/-- The mark stands behind the path, and yet an earlier declaration decides. -/
theorem findImage_optOut_quoted :
    findImage
      { selectors := ["a"]
        body :=
          [.declaration ⟨"background", "url(dot.png)", 2⟩,
           .declaration ⟨"background-image", "url(\"bar.png#spriteignore\")", 3⟩]
        id := 1 } = some ⟨"dot.png", 1, 2, ["a"]⟩ := by
  decide +kernel

end Spriting.Background

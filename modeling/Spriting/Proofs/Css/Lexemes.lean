import Spriting.Proofs.Css.Delimiters
import Spriting.Proofs.Css.Reading

/-!
# Lexemes that are read back

Names, values, comments and the text of blocks do not depend on what follows, as
long as their readers stop there.

* `value_reads_back`, `property_reads_back`: also without the blanks at their ends;
* `atKeyword_reads_back`, `blockText_reads_back`, `comment_eq`.
-/

namespace Spriting.Css

open Text Reader

namespace Reader

theorem inkOutside_inked (stops : List Char) : (inkOutside stops).Inked := by
  apply char_inked
  intro c h
  simp only [Bool.and_eq_true, Bool.not_eq_true'] at h
  exact h.1

theorem outside_stops {stops : List Char} {c : Char} (s : List Char) (h : c ∈ stops) :
    (outside stops).read (c :: s) = none :=
  char_declines s (by simpa using h)

theorem outside_cons {stops : List Char} {c : Char} (s : List Char) (h : c ∉ stops) :
    (outside stops).read (c :: s) = some ([c], s) :=
  char_cons s (by simpa using h)

theorem inkOutside_stops {stops : List Char} {c : Char} (s : List Char) (h : c ∈ stops) :
    (inkOutside stops).read (c :: s) = none :=
  char_declines s (by simp [h])

end Reader

/-! ## Values -/

/-- What a value or a prelude starts with. -/
def valueStart : Reader := (string.orElse group).orElse (inkOutside valueStops)

/-- What a value goes on with. -/
def valuePiece : Reader := (string.orElse group).orElse (outside valueStops)

theorem stringOrGroup_yields {p : Char → Bool} (hq : ∀ c, IsQuote c → p c = false)
    (hg : p '(' = false) : (string.orElse group).Yields (char p) :=
  (string_yields hq).of_orElse (group_yields hg)

theorem stringOrGroup_local : (string.orElse group).Local :=
  string_local.orElse group_local string_yields_group

theorem stringOrGroup_declines {c : Char} (s : List Char) (hq : ¬ IsQuote c) (hg : c ≠ '(') :
    (string.orElse group).read (c :: s) = none :=
  orElse_eq_none_iff.2 ⟨string_declines s hq, group_declines s hg⟩

theorem valueStart_local : valueStart.Local := by
  refine stringOrGroup_local.orElse (char_local _) (stringOrGroup_yields ?_ (by decide))
  rintro c (rfl | rfl) <;> decide

theorem valueStart_inked : valueStart.Inked :=
  (string_inked.orElse group_inked).orElse (inkOutside_inked _)

theorem valuePiece_local : valuePiece.Local := by
  refine stringOrGroup_local.orElse (char_local _) (stringOrGroup_yields ?_ (by decide))
  rintro c (rfl | rfl) <;> decide

theorem valuePiece_tidy : valuePiece.Tidy :=
  (string_inked.orElse group_inked).tidy.orElse (char_tidy _)

/-- The characters that end a value, a prelude or a selector. -/
def IsStop (c : Char) : Prop := c = ';' ∨ c = '\x7b' ∨ c = '\x7d'

instance (c : Char) : Decidable (IsStop c) := inferInstanceAs (Decidable (_ ∨ _))

theorem valuePiece_stops {c : Char} (s : List Char) (h : IsStop c) :
    valuePiece.read (c :: s) = none := by
  rcases h with rfl | rfl | rfl
  all_goals
    exact orElse_eq_none_iff.2
      ⟨stringOrGroup_declines s (by decide) (by decide), outside_stops s (by decide)⟩

theorem valuePiece_char {c : Char} (s : List Char) (h : c ∉ valueStops) :
    valuePiece.read (c :: s) = some ([c], s) := by
  have plain := h
  simp only [valueStops, List.mem_cons, List.not_mem_nil, or_false, not_or] at plain
  rw [valuePiece, orElse_of_none]
  · exact outside_cons s h
  · exact stringOrGroup_declines s (by simp [IsQuote, plain]) plain.2.2.2.2.2

theorem chain_plain {l : List Char} (r : List Char) (h : ∀ c ∈ l, c ∉ valueStops) :
    Chain valuePiece l r :=
  .of_chars (fun c hc s => valuePiece_char s (h c hc)) r

/-- Without the blanks behind it, a value is read back in front of any stop. -/
theorem value_reads_back {s l r r' : List Char} {c : Char}
    (h : Terminal.value.reader.read s = some (l, r)) (hc : IsStop c) :
    Terminal.value.reader.read (trim l ++ c :: r') = some (trim l, c :: r') :=
  followedBy_trim valueStart_local valueStart_inked valuePiece_local valuePiece_tidy h
    (valuePiece_stops r' hc)

/-! ## Names -/

/-- No blank lies in a range of code points that meets none of the ranges of blanks. -/
theorem isBlank_of_between {c : Char} {low high : Nat} (hlow : low ≤ c.toNat)
    (hhigh : c.toNat ≤ high)
    (hapart : ∀ range ∈ blankRanges, range.2 < low ∨ high < range.1) : isBlank c = false := by
  rw [Bool.eq_false_iff]
  intro hb
  obtain ⟨range, hmem, hstart, hend⟩ := inRanges_iff.1 hb
  rcases hapart range hmem with h | h <;> omega

theorem isBlank_of_isAlpha {c : Char} (h : c.isAlpha = true) : isBlank c = false := by
  have hc := toNat_of_isAlpha h
  exact isBlank_of_between hc.1 hc.2 (by decide)

/-- What the name of a property starts with. -/
def propertyStart : Reader := char fun c => c.isAlpha || ['-', '_', '*', '$'].contains c

theorem propertyStart_inked : propertyStart.Inked := by
  apply char_inked
  intro c h
  rcases Bool.or_eq_true_iff.1 h with h | h
  · exact isBlank_of_isAlpha h
  · have : ['-', '_', '*', '$'].all (!isBlank ·) = true := by decide
    simpa using List.all_eq_true.1 this c (by simpa using h)

theorem property_reads_back {s l r r' : List Char}
    (h : Terminal.property.reader.read s = some (l, r)) :
    Terminal.property.reader.read (trim l ++ ':' :: r') = some (trim l, ':' :: r') :=
  followedBy_trim (a := propertyStart) (char_local _) propertyStart_inked (char_local _)
    (char_tidy _) h (char_declines r' (by decide))

/-- The keyword of an at-rule is an at sign and a name. -/
theorem atKeyword_eq_some_iff {s l r : List Char} :
    Terminal.atKeyword.reader.read s = some (l, r) ↔
      ∃ name t, l = '@' :: name ∧ s = '@' :: t ∧ nameChar.oneOrMore.read t = some (name, r) := by
  constructor
  · intro h
    obtain ⟨⟨x, t⟩, hx, hrest⟩ := Option.bind_eq_some_iff.1 h
    obtain ⟨⟨name, r₁⟩, hname, he⟩ := Option.map_eq_some_iff.1 hrest
    cases he
    obtain ⟨c, hc, rfl, rfl⟩ := char_eq_some hx
    obtain rfl : c = '@' := by simpa using hc
    exact ⟨name, t, rfl, rfl, hname⟩
  · rintro ⟨name, t, rfl, rfl, hname⟩
    have at_sign : (char (· == '@')).read ('@' :: t) = some (['@'], t) := char_cons t (by decide)
    simp [Terminal.reader, andThen, at_sign, hname]

/-- The keyword of an at-rule is read back where no name goes on. -/
theorem atKeyword_reads_back {s l r r' : List Char}
    (h : Terminal.atKeyword.reader.read s = some (l, r)) (hr' : nameChar.read r' = none) :
    Terminal.atKeyword.reader.read ('@' :: (l.drop 1 ++ r')) = some ('@' :: l.drop 1, r') := by
  obtain ⟨name, t, rfl, rfl, hname⟩ := atKeyword_eq_some_iff.1 h
  exact atKeyword_eq_some_iff.2 ⟨name, name ++ r', rfl, rfl,
    followedBy_local (char_local _) (char_local _) hname hr'⟩

theorem nameChar_stops {c : Char} (s : List Char) (hc : c = ' ' ∨ c = ';' ∨ c = '\x7b') :
    nameChar.read (c :: s) = none := by
  apply char_declines
  rcases hc with rfl | rfl | rfl <;> decide

/-! ## Comments -/

theorem closeComment_eq {s l r : List Char} (h : closeComment s = some (l, r)) :
    ∃ text, l = text ++ ['*', '/'] := by
  fun_induction closeComment s generalizing l r with
  | case1 =>
    cases h
    exact ⟨[], rfl⟩
  | case2 c cs hc ih =>
    obtain ⟨p, hp, he⟩ := Option.map_eq_some_iff.1 h
    cases he
    obtain ⟨text, htext⟩ := ih hp
    exact ⟨c :: text, by simp [htext]⟩
  | case3 => cases h

/-- A comment is its text between its delimiters. -/
theorem comment_eq {s l r : List Char} (h : comment.read s = some (l, r)) :
    ['/', '*'] ++ (commentOf l).text.toList ++ ['*', '/'] = l := by
  obtain ⟨x, t, rfl, -, hclose⟩ := comment_eq_some h
  obtain ⟨text, rfl⟩ := closeComment_eq hclose
  simp [commentOf]

/-! ## Text of blocks -/

/-- What the text of a block starts with. -/
def blockStart : Reader := string.orElse (inkOutside blockStops)

/-- What the text of a block goes on with. -/
def blockPiece : Reader := string.orElse (outside blockStops)

theorem blockPiece_char {c : Char} (s : List Char) (h : c ∉ blockStops) :
    blockPiece.read (c :: s) = some ([c], s) := by
  have plain := h
  simp only [blockStops, List.mem_cons, List.not_mem_nil, or_false, not_or] at plain
  rw [blockPiece, orElse_of_none (string_declines s (by simp [IsQuote, plain]))]
  exact outside_cons s h

theorem blockStart_local : blockStart.Local := by
  refine string_local.orElse (char_local _) (string_yields ?_)
  rintro c (rfl | rfl) <;> decide

theorem blockPiece_local : blockPiece.Local := by
  refine string_local.orElse (char_local _) (string_yields ?_)
  rintro c (rfl | rfl) <;> decide

theorem blockStart_inked : blockStart.Inked := string_inked.orElse (inkOutside_inked _)

theorem blockPiece_tidy : blockPiece.Tidy := string_inked.tidy.orElse (char_tidy _)

/-- An opening or a closing brace. -/
def IsBrace (c : Char) : Prop := c = '\x7b' ∨ c = '\x7d'

theorem blockPiece_stops {c : Char} (s : List Char) (h : IsBrace c) :
    blockPiece.read (c :: s) = none := by
  rcases h with rfl | rfl
  all_goals exact orElse_eq_none_iff.2 ⟨string_declines s (by decide), outside_stops s (by decide)⟩

theorem blockText_reads_back {s l r r' : List Char} {c : Char}
    (h : Terminal.blockText.reader.read s = some (l, r)) (hc : IsBrace c) :
    Terminal.blockText.reader.read (l ++ c :: r') = some (l, c :: r') :=
  followedBy_local blockStart_local blockPiece_local h (blockPiece_stops r' hc)

end Spriting.Css

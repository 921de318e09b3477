import Spriting.Proofs.Css.Steps

/-!
# Blocks of at-rules

A block is kept as it is written.  What stands between its braces is balanced,
and whatever follows the closing brace, the same block is read there again.

* `Reads.block`: a block that is read is ended by a balanced rest;
* `BlockRest.parseFrom_eq`: a balanced rest ends a block in front of any text;
* `BlockRest.trim`: so it does without the blanks at the ends of the block.
-/

namespace Spriting.Css

open Text Reader

/-- `w` closes a block and the `depth` blocks that are open in it, the brace that ends it
included. -/
inductive BlockRest : Nat → List Char → Prop where
  | close : BlockRest 0 ['\x7d']
  | inner {depth : Nat} {w : List Char} :
    BlockRest depth w → BlockRest (depth + 1) ('\x7d' :: w)
  | enter {depth : Nat} {w : List Char} :
    BlockRest (depth + 1) w → BlockRest depth ('\x7b' :: w)
  | gap {depth : Nat} {g w : List Char} :
    (∀ r, gap.read (g ++ (w ++ r)) = some (g, w ++ r)) → BlockRest depth w →
    BlockRest depth (g ++ w)
  | text {depth : Nat} {l w : List Char} :
    (∀ c ∈ l.head?, ¬ IsGap c) →
    (∀ r, Terminal.blockText.reader.read (l ++ (w ++ r)) = some (l, w ++ r)) →
    BlockRest depth w → BlockRest depth (l ++ w)

theorem BlockRest.ne_nil {depth : Nat} {w : List Char} (h : BlockRest depth w) : w ≠ [] := by
  induction h with
  | close => simp
  | inner _ _ => simp
  | enter _ _ => simp
  | gap _ _ ih => simp [ih]
  | text _ _ _ ih => simp [ih]

/-- A balanced rest ends with the brace that closes the block. -/
theorem BlockRest.eq_dropLast {depth : Nat} {w : List Char} (h : BlockRest depth w) :
    w = w.dropLast ++ ['\x7d'] := by
  induction h with
  | close => rfl
  | inner h ih => rw [List.dropLast_cons_of_ne_nil h.ne_nil, List.cons_append, ← ih]
  | enter h ih => rw [List.dropLast_cons_of_ne_nil h.ne_nil, List.cons_append, ← ih]
  | gap _ h ih => rw [List.dropLast_append_of_ne_nil h.ne_nil, List.append_assoc, ← ih]
  | text _ _ h ih => rw [List.dropLast_append_of_ne_nil h.ne_nil, List.append_assoc, ← ih]

/-! ## Reading a balanced rest -/

variable {n q : List Char}

theorem joined_cons (l : List Char) (pieces : List (List Char)) :
    joined (l :: pieces) = joined pieces ++ l := by
  simp [joined]

/-- A balanced rest ends a block in front of any text. -/
theorem BlockRest.parseFrom_eq {depth : Nat} {w : List Char} (h : BlockRest depth w)
    (pieces : List (List Char)) (r : List Char) :
    parseFrom (.block n q depth pieces) (w ++ r) =
      (parseFrom .nothing r).map (atRuleOf n q (some (joined pieces ++ w.dropLast)) :: ·) := by
  induction h generalizing pieces with
  | close =>
    rw [List.singleton_append,
      parseFrom_end (p := .block n q 0 pieces) (t := .closeBrace) rfl rfl]
    simp
  | @inner depth w h ih =>
    rw [List.cons_append,
      parseFrom_mark (p := .block n q (depth + 1) pieces) (t := .closeBrace)
        (q := .block n q depth (['\x7d'] :: pieces)) rfl rfl,
      ih, joined_cons, List.dropLast_cons_of_ne_nil h.ne_nil]
    simp
  | @enter depth w h ih =>
    rw [List.cons_append,
      parseFrom_mark (p := .block n q depth pieces) (t := .openBrace)
        (q := .block n q (depth + 1) (['\x7b'] :: pieces)) rfl rfl,
      ih, joined_cons, List.dropLast_cons_of_ne_nil h.ne_nil]
    simp
  | @gap depth g w hread h ih =>
    rw [List.append_assoc, parseFrom_gap (hread r)]
    rw [Pending.skip, ih, joined_cons, List.dropLast_append_of_ne_nil h.ne_nil, List.append_assoc]
  | @text depth l w hgap hread h ih =>
    rw [List.append_assoc, parseFrom_shift (t := .blockText) (hread r) rfl, ih, joined_cons,
      List.dropLast_append_of_ne_nil h.ne_nil, List.append_assoc]

/-! ## Blocks that are read -/

theorem blockPiece_of_start {s : List Char} {p : List Char × List Char}
    (h : blockStart.read s = some p) : blockPiece.read s = some p := by
  rcases orElse_eq_some_iff.1 h with h | ⟨hstring, h⟩
  · exact orElse_of_some h
  · obtain ⟨l, r⟩ := p
    obtain ⟨c, hc, rfl, rfl⟩ := char_eq_some h
    rw [blockPiece, orElse_of_none hstring]
    simp only [Bool.and_eq_true] at hc
    exact char_cons r hc.2

/-- A balanced rest where the text of a block stops starts with a brace. -/
theorem BlockRest.head_of_stop {depth : Nat} {w r : List Char} (h : BlockRest depth w)
    (hstop : blockPiece.read (w ++ r) = none) : ∃ c t, w = c :: t ∧ IsBrace c := by
  cases h with
  | close => exact ⟨_, _, rfl, .inr rfl⟩
  | inner _ => exact ⟨_, _, rfl, .inr rfl⟩
  | enter _ => exact ⟨_, _, rfl, .inl rfl⟩
  | gap hread _ =>
    rename_i w g
    obtain ⟨⟨c, hc, hgap⟩, -⟩ := gap_head (hread r)
    obtain ⟨g, rfl⟩ := List.head?_eq_some_iff.1 hc
    have hnot : c ∉ blockStops := hgap.notMem (by decide)
    have hout := (orElse_eq_none_iff.1 hstop).2
    rw [List.cons_append, List.cons_append, outside_cons _ hnot] at hout
    cases hout
  | text _ hread _ =>
    obtain ⟨x, m, -, hx, -⟩ := (followedBy_eq_some_iff (a := blockStart)).1 (hread r)
    rw [List.append_assoc] at hstop
    rw [blockPiece_of_start hx] at hstop
    cases hstop

theorem gap_reads_back {s g r : List Char} (h : gap.read s = some (g, r)) {r' : List Char}
    (hr' : ∀ c ∈ r'.head?, ¬ IsGap c) : gap.read (g ++ r') = some (g, r') := by
  refine followedBy_local (a := gapChar) (b := gapChar) (char_local _) (char_local _) h ?_
  cases r' with
  | nil => rfl
  | cons c r' => exact gapChar_declines r' (hr' c rfl)

/-- A balanced rest ends the open block in `s`, and the parser goes on behind it. -/
def EndsBlock (n q : List Char) (depth : Nat) (pieces : List (List Char)) (s : List Char)
    (ts : List (Terminal × List Char)) (ns : List Node) : Prop :=
  ∃ w r ts' ns', s = w ++ r ∧ BlockRest depth w ∧ ts' ⊆ ts ∧ Reads .nothing r ts' ns' ∧
    ns = atRuleOf n q (some (joined pieces ++ w.dropLast)) :: ns'

/-- A piece of the block in front of the rest that ends it. -/
theorem EndsBlock.prepend {depth depth' : Nat} {pieces : List (List Char)} {s l : List Char}
    {ts ts₁ : List (Terminal × List Char)} {ns : List Node}
    (h : EndsBlock n q depth' (l :: pieces) s ts ns) (hts : ts ⊆ ts₁)
    (hpiece : ∀ w r, s = w ++ r → BlockRest depth' w → BlockRest depth (l ++ w)) :
    EndsBlock n q depth pieces (l ++ s) ts₁ ns := by
  obtain ⟨w, r, ts', ns', rfl, hw, hts', hreads, rfl⟩ := h
  refine ⟨l ++ w, r, ts', ns', (List.append_assoc ..).symm, hpiece w r rfl hw,
    List.Subset.trans hts' hts, hreads, ?_⟩
  rw [joined_cons, List.dropLast_append_of_ne_nil hw.ne_nil, List.append_assoc]

/-- A gap goes on with a balanced rest. -/
theorem BlockRest.gap_cons {depth : Nat} {g w r : List Char} (h : BlockRest depth w)
    (hread : Css.gap.read (g ++ (w ++ r)) = some (g, w ++ r)) : BlockRest depth (g ++ w) := by
  refine .gap (fun r' => gap_reads_back hread ?_) h
  obtain ⟨c, t, rfl⟩ := List.exists_cons_of_ne_nil h.ne_nil
  exact (gap_head hread).2

/-- A text goes on with the balanced rest where it stops. -/
theorem BlockRest.text_cons {depth : Nat} {l w r : List Char} (h : BlockRest depth w)
    (hgap : Css.gap.read (l ++ (w ++ r)) = none)
    (hread : Terminal.blockText.reader.read (l ++ (w ++ r)) = some (l, w ++ r)) :
    BlockRest depth (l ++ w) := by
  obtain ⟨-, -, -, -, -, hstop⟩ := (followedBy_eq_some_iff (a := blockStart)).1 hread
  obtain ⟨c, w, rfl, hc⟩ := h.head_of_stop hstop
  refine .text ?_ (fun r' => blockText_reads_back hread hc) h
  intro d hd hgap_d
  obtain ⟨l, rfl⟩ := List.head?_eq_some_iff.1 hd
  rw [List.cons_append, Css.gap_cons _ hgap_d] at hgap
  cases hgap

/-- A block that is read is ended by a balanced rest. -/
theorem Reads.block {depth : Nat} {pieces : List (List Char)} {s : List Char}
    {ts : List (Terminal × List Char)} {ns : List Node}
    (h : Reads (.block n q depth pieces) s ts ns) : EndsBlock n q depth pieces s ts ns := by
  generalize hp : Pending.block n q depth pieces = p at h
  induction h generalizing depth pieces with
  | done => cases hp
  | @gap p s g r ts ns hread _ ih =>
    subst hp
    have hs := (Css.gap.splits hread).1
    rw [hs] at hread ⊢
    refine (ih rfl).prepend (List.Subset.refl _) ?_
    rintro w r rfl hw
    exact hw.gap_cons hread
  | @lexeme p p' s l r t node? ts ns hgap hfirst hshift hrest ih =>
    subst hp
    have hread := (firstLexeme_eq_some hfirst).2
    obtain ⟨rfl, -⟩ := t.reader.splits hread
    have brace : ∀ c, (Reader.char (· == c)).read (l ++ r) = some (l, r) → l = [c] := by
      intro c hread
      obtain ⟨d, hd, rfl, -⟩ := char_eq_some hread
      simpa using hd
    have hts : ts ⊆ (t, l) :: ts := List.subset_cons_self _ _
    cases Pending.shift_eq_some_iff.1 hshift with
    | blockText =>
      refine (ih rfl).prepend hts ?_
      rintro w r rfl hw
      exact hw.text_cons hgap hread
    | openInner =>
      obtain rfl := brace _ hread
      exact (ih rfl).prepend hts fun w r _ hw => .enter hw
    | closeInner =>
      obtain rfl := brace _ hread
      exact (ih rfl).prepend hts fun w r _ hw => .inner hw
    | closeBlock =>
      obtain rfl := brace _ hread
      exact ⟨['\x7d'], r, ts, ns, rfl, .close, hts, hrest, by simp⟩
    | semicolon hbody => cases hbody
    | closeBody hbody => cases hbody
    | statement hhead => cases hhead
    | openBlock hhead => cases hhead

/-! ## Blocks without the blanks at their ends -/

/-- The text of a block starts with ink. -/
theorem blockText_head {s l r : List Char} (h : Terminal.blockText.reader.read s = some (l, r)) :
    ∀ c ∈ l.head?, isBlank c = false := by
  simpa using blockStart_inked.head_followedBy h []

/-- Without the blanks behind it, the text of a block is read back in front of a brace. -/
theorem blockText_reads_back_trimmed {s l r r' : List Char} {c : Char}
    (h : Terminal.blockText.reader.read s = some (l, r)) (hc : IsBrace c) :
    Terminal.blockText.reader.read (trimEnd l ++ c :: r') = some (trimEnd l, c :: r') := by
  rw [← trim_of_head (blockText_head h)]
  exact followedBy_trim blockStart_local blockStart_inked blockPiece_local blockPiece_tidy h
    (blockPiece_stops r' hc)

/-- A rest of which more than blanks stands in front of its last brace starts the same without
the blanks there. -/
theorem BlockRest.head_trimEnd {depth : Nat} {w : List Char} (h : BlockRest depth w)
    (hne : Text.trimEnd w.dropLast ≠ []) :
    ∃ c t t', w = c :: t ∧ Text.trimEnd w.dropLast = c :: t' := by
  obtain ⟨c, t', ht'⟩ := List.exists_cons_of_ne_nil hne
  obtain ⟨b, -, hb⟩ := exists_trimEnd w.dropLast
  refine ⟨c, t' ++ (b ++ ['\x7d']), t', ?_, ht'⟩
  conv => lhs; rw [h.eq_dropLast, hb, ht']
  simp

theorem trimEnd_dropLast_cons {c : Char} {w : List Char} (hc : isBlank c = false) (hw : w ≠ []) :
    Text.trimEnd (c :: w).dropLast = c :: Text.trimEnd w.dropLast := by
  have ink : ∀ d ∈ [c].getLast?, isBlank d = false := by
    rintro d ⟨⟩
    exact hc
  rw [List.dropLast_cons_of_ne_nil hw, ← List.singleton_append, trimEnd_append ink]
  rfl

/-- Without the blanks in front of its last brace, a balanced rest is balanced. -/
theorem BlockRest.trimEnd {depth : Nat} {w : List Char} (h : BlockRest depth w) :
    BlockRest depth (Text.trimEnd w.dropLast ++ ['\x7d']) := by
  induction h with
  | close => exact .close
  | inner h ih =>
    rw [trimEnd_dropLast_cons (by decide) h.ne_nil]
    exact ih.inner
  | enter h ih =>
    rw [trimEnd_dropLast_cons (by decide) h.ne_nil]
    exact ih.enter
  | @gap depth g w hread h ih =>
    rw [List.dropLast_append_of_ne_nil h.ne_nil, trimEnd_append_eq]
    split
    · rename_i hnone
      have blank : Text.trimEnd ([] ++ g) = [] := trimEnd_append_of_blank (gap_allBlank (hread []))
      rw [List.nil_append] at blank
      rw [blank]
      rwa [hnone] at ih
    · rename_i hsome
      obtain ⟨c, t, t', rfl, ht'⟩ := h.head_trimEnd hsome
      rw [List.append_assoc]
      refine .gap (fun r => gap_reads_back (hread r) ?_) ih
      rw [ht']
      exact (gap_head (hread [])).2
  | @text depth l w hgap hread h ih =>
    rw [List.dropLast_append_of_ne_nil h.ne_nil, trimEnd_append_eq]
    split
    · rename_i hnone
      rw [hnone] at ih
      refine .text ?_ (fun r => blockText_reads_back_trimmed (hread []) (.inr rfl)) ih
      rw [← trim_of_head (blockText_head (hread []))]
      exact not_gap_of_trim
    · rename_i hsome
      obtain ⟨c, t, t', rfl, ht'⟩ := h.head_trimEnd hsome
      rw [List.append_assoc]
      refine .text hgap (fun r => ?_) ih
      -- what follows the text is a brace still
      obtain ⟨-, -, -, -, -, hstop⟩ := (followedBy_eq_some_iff (a := blockStart)).1 (hread [])
      obtain ⟨d, u, hd, hbrace⟩ := h.head_of_stop hstop
      cases hd
      rw [ht']
      exact blockText_reads_back (hread []) hbrace

/-- A block that starts with no gap starts with ink. -/
theorem BlockRest.head_ink {depth : Nat} {w : List Char} (h : BlockRest depth w)
    (hgap : ∀ c ∈ w.head?, ¬ IsGap c) : ∀ c ∈ w.dropLast.head?, isBlank c = false := by
  cases h with
  | close => exact nofun
  | inner h =>
    rw [List.dropLast_cons_of_ne_nil h.ne_nil]
    rintro c ⟨⟩
    decide
  | enter h =>
    rw [List.dropLast_cons_of_ne_nil h.ne_nil]
    rintro c ⟨⟩
    decide
  | @gap _ g w hread h =>
    obtain ⟨⟨c, hc, hgap_c⟩, -⟩ := gap_head (hread [])
    obtain ⟨g, rfl⟩ := List.head?_eq_some_iff.1 hc
    exact absurd hgap_c (hgap c rfl)
  | @text _ l w _ hread h =>
    obtain ⟨c, l, rfl⟩ := List.exists_cons_of_ne_nil (Terminal.blockText.reader.splits (hread [])).2
    rw [List.dropLast_append_of_ne_nil h.ne_nil]
    have ink := blockText_head (hread [])
    exact ink

/-- Without the blanks at both ends, a block is a block. -/
theorem BlockRest.trim {w : List Char} (h : BlockRest 0 w) :
    BlockRest 0 (Text.trim w.dropLast ++ ['\x7d']) := by
  by_cases hgap : ∀ c ∈ w.head?, ¬ IsGap c
  · rw [trim_of_head (h.head_ink hgap)]
    exact h.trimEnd
  · cases h with
    | close => exact .close
    | enter h => exact absurd (by rintro c ⟨⟩; decide) hgap
    | @gap _ g w hread h =>
      rw [List.dropLast_append_of_ne_nil h.ne_nil, trim_blank_append (gap_allBlank (hread [])),
        trim_of_head (h.head_ink (by simpa using (gap_head (hread [])).2))]
      exact h.trimEnd
    | @text _ l w hgap_l hread h =>
      obtain ⟨c, l, rfl⟩ :=
        List.exists_cons_of_ne_nil (Terminal.blockText.reader.splits (hread [])).2
      exact absurd hgap_l hgap

end Spriting.Css

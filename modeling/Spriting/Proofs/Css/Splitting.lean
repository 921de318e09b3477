import Spriting.Proofs.Css.SelectorList

/-!
# Splitting and the lexemes of a selector

The reader of selectors takes a string or a comment as one lexeme.  Splitting goes by single
characters: it knows a string by its marks and a comment not at all.  So the two agree about a
selector as long as splitting comes out of every string and every comment as it went in.

* `selectorPiece_transfer`, `lexemes_front`: the lexemes of a selector that goes on otherwise;
* `segments_lexemes`: splitting and the lexemes agree step by step;
* `exists_closing`: brackets and a comma that tell places apart;
* `splitSelectors_lexed`: when a selector is split as it is read.
-/

namespace Spriting.Css

open Text Reader

namespace Reader

/-- The pieces that a reader takes one after another. -/
def parts (a : Reader) (s : List Char) : List (List Char) :=
  match _h : a.read s with
  | none => []
  | some (l, r) => l :: a.parts r
termination_by s.length
decreasing_by exact a.length_rest_lt _h

variable {a : Reader} {s l r : List Char}

theorem parts_of_none (h : a.read s = none) : a.parts s = [] := by
  rw [parts]
  split
  · rfl
  · simp_all

theorem parts_of_some (h : a.read s = some (l, r)) : a.parts s = l :: a.parts r := by
  rw [parts]
  split
  · simp_all
  · rename_i h'
    rw [h] at h'
    cases h'
    rfl

theorem parts_eq_cons_iff {xs : List (List Char)} :
    a.parts s = l :: xs ↔ ∃ r, a.read s = some (l, r) ∧ a.parts r = xs := by
  cases h : a.read s with
  | none => simp [parts_of_none h]
  | some p => simp [parts_of_some h, Prod.ext_iff, and_assoc]

theorem flatten_parts (a : Reader) (s : List Char) : (a.parts s).flatten = (a.many s).1 := by
  fun_induction parts a s with
  | case1 s h => rw [many_of_none h, List.flatten_nil]
  | case2 s l r h ih => rw [many_of_some h, List.flatten_cons, ih]

theorem forall_mem_parts {P : List Char → Prop} (h : ∀ s l r, a.read s = some (l, r) → P l)
    (s : List Char) : ∀ x ∈ a.parts s, P x := by
  fun_induction parts a s with
  | case1 s hread => exact nofun
  | case2 s l r hread ih => exact List.forall_mem_cons.2 ⟨h s l r hread, ih⟩

end Reader

variable {s l r r' t x : List Char} {front rest xs zs : List (List Char)} {d : Nat}

/-! ## The lexemes of a selector -/

/-- The strings, comments and single characters that a selector is read as. -/
def lexemes (l : List Char) : List (List Char) := selectorPiece.parts l

/-- The reader of selectors takes all of the text. -/
def IsSelector (l : List Char) : Prop := Terminal.selector.reader.read l = some (l, [])

instance (l : List Char) : Decidable (IsSelector l) := inferInstanceAs (Decidable (_ = _))

theorem selectorPiece_cases (h : selectorPiece.read s = some (x, r)) :
    string.read s = some (x, r) ∨ Reader.comment.read s = some (x, r) ∨
      (x = ['/'] ∧ s = '/' :: r ∧ r.head? ≠ some '*') ∨
      ∃ c, x = [c] ∧ s = c :: r ∧ c ∉ selectorStops := by
  cases s with
  | nil => cases h
  | cons c s =>
    rcases selectorChar_cases c with hc | rfl | hc | hc
    · exact .inl ((selectorPiece_string s hc).symm.trans h)
    · rw [selectorPiece_slash] at h
      rcases Option.or_eq_some_iff.1 h with h | ⟨-, h⟩
      · exact .inr (.inl h)
      · exact .inr (.inr (.inl (slash_eq_some h)))
    · rw [selectorPiece_stops s hc] at h
      cases h
    · rw [selectorPiece_char s hc] at h
      cases h
      exact .inr (.inr (.inr ⟨c, rfl, rfl, hc⟩))

/-- What follows a lexeme does not matter to it, but that a slash opens no comment. -/
theorem selectorPiece_transfer (h : selectorPiece.read s = some (x, r))
    (hslash : x = ['/'] → r'.head? ≠ some '*') :
    selectorPiece.read (x ++ r') = some (x, r') := by
  rcases selectorPiece_cases h with h | h | ⟨rfl, -, -⟩ | ⟨c, rfl, -, hc⟩
  · have hlocal := string_local _ _ _ h r'
    obtain ⟨mark, y, -, hmark, rfl, -⟩ := string_eq_some h
    rw [List.cons_append] at hlocal ⊢
    rw [selectorPiece_string _ hmark, hlocal]
  · have hlocal := comment_local _ _ _ h r'
    obtain ⟨y, -, rfl, -⟩ := comment_eq_some h
    rw [List.cons_append] at hlocal ⊢
    rw [selectorPiece_slash, hlocal, Option.some_or]
  · rw [List.singleton_append, selectorPiece_slash, slash_alone (hslash rfl),
      comment_declines fun _ => hslash rfl, Option.none_or]
  · exact selectorPiece_char r' hc

theorem selectorPiece_slash_head (h : selectorPiece.read s = some (['/'], r)) :
    r.head? ≠ some '*' := by
  rcases selectorPiece_cases h with h | h | ⟨-, -, hstar⟩ | ⟨c, hc, -, hstop⟩
  · obtain ⟨mark, y, -, hmark, hx, -⟩ := string_eq_some h
    obtain ⟨rfl, -⟩ := List.cons.inj hx
    exact absurd hmark (by decide)
  · obtain ⟨y, -, hx, -⟩ := comment_eq_some h
    cases hx
  · exact hstar
  · cases hc
    exact absurd (by decide) hstop

/-- A selector is what has a selector's first character and nothing but lexemes. -/
theorem isSelector_iff :
    IsSelector l ↔ (∃ c ∈ l.head?, Leads c) ∧ (lexemes l).flatten = l := by
  constructor
  · intro h
    obtain ⟨x, m, hl, hx, hm, hstop⟩ := (followedBy_eq_some_iff (a := selectorStart)).1 h
    obtain ⟨hpiece, hleads⟩ := selectorStart_spec hx
    refine ⟨hleads, ?_⟩
    rw [List.append_nil] at hpiece
    have hmany : selectorPiece.many (m ++ []) = (m, []) := hm.many_eq hstop
    rw [List.append_nil] at hmany
    rw [lexemes, parts_of_some hpiece, List.flatten_cons, flatten_parts, hmany, ← hl]
  · rintro ⟨⟨c, hc, hleads⟩, hflat⟩
    obtain ⟨s, rfl⟩ := List.head?_eq_some_iff.1 hc
    cases hread : selectorPiece.read (c :: s) with
    | none =>
      rw [lexemes, parts_of_none hread] at hflat
      cases hflat
    | some p =>
      obtain ⟨x, m⟩ := p
      obtain ⟨hsplit, -⟩ := selectorPiece.splits hread
      rw [lexemes, parts_of_some hread, List.flatten_cons, flatten_parts, hsplit] at hflat
      have hall : (selectorPiece.many m).1 = m := List.append_cancel_left hflat
      have hnone : (selectorPiece.many m).2 = [] := by
        have := selectorPiece.many_append m
        rw [hall] at this
        exact List.append_right_eq_self.1 this.symm
      have hchain := chain_many selectorPiece m
      rw [hall, hnone] at hchain
      refine (followedBy_eq_some_iff (a := selectorStart)).2 ⟨x, m, hsplit, ?_, hchain, rfl⟩
      rw [selectorStart_of_leads hleads, List.append_nil]
      exact hread

/-- A front of the lexemes is read as it was if no asterisk follows. -/
theorem lexemes_front (h : lexemes l = front ++ rest) (ht : t.head? ≠ some '*') :
    lexemes (front.flatten ++ t) = front ++ lexemes t := by
  induction front generalizing l with
  | nil => rfl
  | cons x front ih =>
    obtain ⟨r, hread, hrest⟩ := parts_eq_cons_iff.1 h
    have hslash : x = ['/'] → (front.flatten ++ t).head? ≠ some '*' := by
      rintro rfl
      cases front with
      | nil => exact ht
      | cons y front =>
        obtain ⟨r₂, hread₂, -⟩ := parts_eq_cons_iff.1 hrest
        obtain ⟨rfl, hy⟩ := selectorPiece.splits hread₂
        obtain ⟨c, y, rfl⟩ := List.exists_cons_of_ne_nil hy
        have hhead := selectorPiece_slash_head hread
        exact hhead
    rw [List.flatten_cons, List.append_assoc, lexemes,
      parts_of_some (selectorPiece_transfer hread hslash)]
    exact congrArg _ (ih hrest)

/-- Characters that start neither a string nor a comment are lexemes by themselves. -/
theorem lexemes_chars (ht : ∀ c ∈ t, c ∉ selectorStops) : lexemes t = t.map fun c => [c] := by
  induction t with
  | nil => exact parts_of_none rfl
  | cons c t ih =>
    obtain ⟨hc, ht⟩ := List.forall_mem_cons.1 ht
    rw [lexemes, parts_of_some (selectorPiece_char t hc)]
    exact congrArg _ (ih ht)

/-! ## Cutting at lexemes -/

/-- How many brackets are open behind a lexeme. -/
def bracketed (depth : Nat) (x : List Char) : Nat :=
  if x = ['('] ∨ x = ['['] then depth + 1
  else if x = [')'] ∨ x = [']'] then depth - 1
  else depth

/-- The text of the lexemes up to the first comma outside brackets, and the texts between that and
the other such commas. -/
def cutLexemes (depth : Nat) : List (List Char) → List Char × List (List Char)
  | [] => ([], [])
  | x :: xs =>
    if x = [','] ∧ depth = 0 then
      let rest := cutLexemes depth xs
      ([], rest.1 :: rest.2)
    else
      let rest := cutLexemes (bracketed depth x) xs
      (x ++ rest.1, rest.2)

/-- A selector list cut at the commas outside its strings, its comments and its brackets. -/
def lexedPieces (l : List Char) : List (List Char) :=
  (cutLexemes 0 (lexemes l)).1 :: (cutLexemes 0 (lexemes l)).2

theorem intercalate_cutLexemes (d : Nat) (xs : List (List Char)) :
    [','].intercalate ((cutLexemes d xs).1 :: (cutLexemes d xs).2) = xs.flatten := by
  induction xs generalizing d with
  | nil => rfl
  | cons x xs ih =>
    rw [cutLexemes]
    split
    · rename_i h
      rw [List.intercalate_cons_of_ne_nil (List.cons_ne_nil _ _), ih d, h.1]
      rfl
    · rw [List.flatten_cons, ← ih (bracketed d x)]
      cases (cutLexemes (bracketed d x) xs).2 with
      | nil => simp
      | cons y ys => simp [List.intercalate_cons_cons]

/-- Splitting comes out of every string and every comment as it went in. -/
def InStep : Nat → List (List Char) → Prop
  | _, [] => True
  | d, x :: xs =>
    (1 < x.length → Nesting.within ⟨d, none⟩ x = some ⟨d, none⟩) ∧ InStep (bracketed d x) xs

instance decidableInStep : (d : Nat) → (xs : List (List Char)) → Decidable (InStep d xs)
  | _, [] => .isTrue trivial
  | d, x :: xs => by
    have := decidableInStep (bracketed d x) xs
    exact inferInstanceAs (Decidable (_ ∧ _))

/-- A string or a comment, or another character. -/
def IsLexeme (x : List Char) : Prop := 1 < x.length ∨ ∃ c, x = [c] ∧ ¬ IsQuote c

theorem isLexeme_of_mem (hx : x ∈ lexemes l) : IsLexeme x := by
  refine forall_mem_parts (P := IsLexeme) (fun s x r h => ?_) l x hx
  rcases selectorPiece_cases h with h | h | ⟨rfl, -, -⟩ | ⟨c, rfl, -, hc⟩
  · obtain ⟨mark, y, t, -, rfl, -, hclose⟩ := string_eq_some h
    cases y with
    | nil => cases closeQuote_last hclose
    | cons c y => exact .inl (by simp)
  · obtain ⟨y, t, rfl, -⟩ := comment_eq_some h
    exact .inl (by simp)
  · exact .inr ⟨'/', rfl, by decide⟩
  · refine .inr ⟨c, rfl, ?_⟩
    rintro (rfl | rfl) <;> exact hc (by decide)

theorem bracketed_of_long (h : 1 < x.length) : bracketed d x = d := by
  have single : ∀ c, x ≠ [c] := by
    rintro c rfl
    simp at h
  simp [bracketed, single]

theorem advance_char {c : Char} (hc : ¬ IsQuote c) :
    Nesting.advance ⟨d, none⟩ c = ⟨bracketed d [c], none⟩ := by
  have hc : ¬ (c = '"' ∨ c = '\'') := hc
  simp only [Nesting.advance, bracketed, Bool.or_eq_true, decide_eq_true_eq, if_neg hc,
    List.cons.injEq, and_true]
  split
  · rfl
  · split <;> rfl

/-- Splitting keeps in step with the lexemes. -/
theorem segments_lexemes (hxs : ∀ x ∈ xs, IsLexeme x) (h : InStep d xs) (r : List Char)
    (zs : List (List Char)) :
    segments ⟨d, none⟩ (xs.flatten ++ r) = cutLexemes d (xs ++ zs) ↔
      segments ⟨xs.foldl bracketed d, none⟩ r = cutLexemes (xs.foldl bracketed d) zs := by
  induction xs generalizing d with
  | nil => rfl
  | cons x xs ih =>
    obtain ⟨hx, hxs⟩ := List.forall_mem_cons.1 hxs
    obtain ⟨hskip, hstep⟩ := h
    rw [List.foldl_cons, ← ih hxs hstep, List.flatten_cons, List.append_assoc, List.cons_append,
      cutLexemes]
    rcases hx with hlong | ⟨c, rfl, hc⟩
    · have hcomma : ¬ (x = [','] ∧ d = 0) := by
        rintro ⟨rfl, -⟩
        simp at hlong
      rw [segments_append _ (hskip hlong), if_neg hcomma, bracketed_of_long hlong]
      simp [Prod.ext_iff]
    · rw [List.singleton_append, segments]
      by_cases hcomma : c = ',' ∧ d = 0
      · obtain ⟨rfl, rfl⟩ := hcomma
        rw [if_pos (by decide), if_pos (by decide)]
        simp [Prod.ext_iff, bracketed]
      · have hsep : Nesting.separates ⟨d, none⟩ c = false := by
          simpa [Nesting.separates] using fun hd hc => hcomma ⟨hc, hd⟩
        rw [hsep, advance_char hc, if_neg (by decide), if_neg (by simpa using hcomma)]
        simp [Prod.ext_iff]

theorem inStep_append : InStep d (xs ++ zs) ↔ InStep d xs ∧ InStep (xs.foldl bracketed d) zs := by
  induction xs generalizing d with
  | nil => simp [InStep]
  | cons x xs ih => simp [InStep, ih, and_assoc]

/-- In a text without quotes every character is a lexeme to splitting. -/
theorem segments_chars (ht : ∀ c ∈ t, ¬ IsQuote c) :
    segments ⟨d, none⟩ t = cutLexemes d (t.map fun c => [c]) := by
  have hlexemes : ∀ x ∈ t.map fun c => [c], IsLexeme x := by
    intro x hx
    obtain ⟨c, hc, rfl⟩ := List.mem_map.1 hx
    exact .inr ⟨c, rfl, ht c hc⟩
  have hstep : ∀ (d : Nat) (t : List Char), InStep d (t.map fun c => [c]) := by
    intro d t
    induction t generalizing d with
    | nil => trivial
    | cons c t ih => exact ⟨fun h => absurd h (by simp), ih _⟩
  have hwhole := (segments_lexemes hlexemes (hstep d t) [] []).2 rfl
  rw [List.append_nil, List.append_nil] at hwhole
  rw [← hwhole, ← List.flatMap_def, List.flatMap_singleton']

/-! ## Telling places apart -/

/-- Closing brackets and a comma. -/
def closing (k : Nat) : List Char := List.replicate k ')' ++ [',']

theorem mem_closing {k : Nat} {c : Char} (h : c ∈ closing k) : c = ')' ∨ c = ',' := by
  rcases List.mem_append.1 h with h | h
  · exact .inl (List.eq_of_mem_replicate h)
  · exact .inr (List.mem_singleton.1 h)

/-- The comma behind brackets separates where no string and no more brackets than these are
open. -/
theorem segments_closing {n : Nesting} (hn : n.Proper) (k : Nat) :
    (segments n (closing k)).2 = if n.mark = none ∧ n.depth ≤ k then [[]] else [] := by
  induction k generalizing n with
  | zero =>
    obtain ⟨depth, mark⟩ := n
    cases mark <;> cases depth <;> simp [closing, segments, Nesting.separates]
  | succ k ih =>
    have hcons : closing (k + 1) = ')' :: closing k := rfl
    have hsep : n.separates ')' = false := by simp [Nesting.separates]
    rw [hcons, segments, hsep, if_neg (by decide), ih (hn.advance ')')]
    obtain ⟨depth, mark⟩ := n
    cases mark with
    | none => simp [Nesting.advance]
    | some q =>
      have hq : ')' ≠ q := by
        rcases hn q rfl with rfl | rfl <;> decide
      simp [Nesting.advance, hq]

/-- Brackets and a comma tell a place from another. -/
theorem exists_closing {n : Nesting} (hn : n.Proper) (h : n ≠ ⟨d, none⟩) :
    ∃ k, (segments n (closing k)).2 ≠ (segments ⟨d, none⟩ (closing k)).2 := by
  have hplain : Nesting.Proper ⟨d, none⟩ := nofun
  simp only [segments_closing hn, segments_closing hplain]
  obtain ⟨e, mark⟩ := n
  cases mark with
  | some q => exact ⟨d, by simp⟩
  | none =>
    have hne : e ≠ d := fun he => h (by rw [he])
    rcases Nat.lt_or_gt_of_ne hne with hlt | hlt
    · exact ⟨e, by simp [hlt]⟩
    · exact ⟨d, by simp [hlt]⟩

theorem segments_ne_nil_of_within {n : Nesting} (h : n.within s = none) :
    (segments n s).2 ≠ [] := by
  induction s generalizing n with
  | nil => cases h
  | cons c s ih =>
    rw [segments]
    split
    · exact List.cons_ne_nil _ _
    · rename_i hsep
      rw [Nesting.within, if_neg hsep] at h
      exact ih h

/-- What puts splitting out of step has a first lexeme that does. -/
theorem exists_of_not_inStep (h : ¬ InStep d xs) :
    ∃ ys x zs, xs = ys ++ x :: zs ∧ InStep d ys ∧ 1 < x.length ∧
      Nesting.within ⟨ys.foldl bracketed d, none⟩ x ≠ some ⟨ys.foldl bracketed d, none⟩ := by
  induction xs generalizing d with
  | nil => exact absurd trivial h
  | cons x xs ih =>
    by_cases hx : 1 < x.length → Nesting.within ⟨d, none⟩ x = some ⟨d, none⟩
    · have hrest : ¬ InStep (bracketed d x) xs := fun hrest => h ⟨hx, hrest⟩
      obtain ⟨ys, y, zs, rfl, hys, hy⟩ := ih hrest
      exact ⟨x :: ys, y, zs, rfl, ⟨hx, hys⟩, hy⟩
    · obtain ⟨hlong, hout⟩ := Classical.not_imp.1 hx
      exact ⟨[], x, xs, rfl, trivial, hlong, hout⟩

/-- Behind a lexeme that puts splitting out of step some text is split elsewhere. -/
theorem exists_segments_ne (hlong : 1 < x.length)
    (h : Nesting.within ⟨d, none⟩ x ≠ some ⟨d, none⟩) :
    ∃ t, (∀ c ∈ t, c = ')' ∨ c = ',') ∧
      segments ⟨d, none⟩ (x ++ t) ≠ cutLexemes d (x :: t.map fun c => [c]) := by
  have hcut : ∀ xs, cutLexemes d (x :: xs) = (x ++ (cutLexemes d xs).1, (cutLexemes d xs).2) := by
    intro xs
    have hcomma : ¬ (x = [','] ∧ d = 0) := by
      rintro ⟨rfl, -⟩
      simp at hlong
    rw [cutLexemes, if_neg hcomma, bracketed_of_long hlong]
  cases hn : Nesting.within ⟨d, none⟩ x with
  | none =>
    refine ⟨[], nofun, fun hsame => segments_ne_nil_of_within hn ?_⟩
    rw [List.append_nil] at hsame
    rw [hsame, List.map_nil, hcut]
    rfl
  | some n =>
    have hplain : Nesting.Proper ⟨d, none⟩ := nofun
    have hne : n ≠ ⟨d, none⟩ := fun hsame => h (hn.trans (congrArg some hsame))
    obtain ⟨k, hk⟩ := exists_closing (hplain.within hn) hne
    refine ⟨closing k, fun c hc => mem_closing hc, fun hsame => hk ?_⟩
    have hquote : ∀ c ∈ closing k, ¬ IsQuote c := by
      intro c hc
      rcases mem_closing hc with rfl | rfl <;> decide
    rw [segments_append _ hn, hcut, ← segments_chars hquote] at hsame
    exact (Prod.mk.inj hsame).2

/-! ## Splitting a selector -/

theorem pieces_eq_lexedPieces_iff :
    pieces {} l = lexedPieces l ↔ segments {} l = cutLexemes 0 (lexemes l) := by
  rw [pieces, lexedPieces, List.cons.injEq, Prod.ext_iff]

/-- A lexeme that splitting cannot trip over: a string that has its mark at its ends only, or any
text without commas, quotes and brackets. -/
def Smooth (x : List Char) : Prop :=
  (∃ q y, IsQuote q ∧ q ∉ y ∧ x = q :: (y ++ [q])) ∨
    ∀ c ∈ x, c ∉ [',', '"', '\'', '(', ')', '[', ']']

theorem Smooth.within (h : Smooth x) : Nesting.within ⟨d, none⟩ x = some ⟨d, none⟩ := by
  rcases h with ⟨q, y, hq, hy, rfl⟩ | h
  · have hopen : Nesting.advance ⟨d, none⟩ q = ⟨d, some q⟩ := by
      rcases hq with rfl | rfl <;> rfl
    have hsep : Nesting.separates ⟨d, none⟩ q = false := by
      rcases hq with rfl | rfl <;> simp [Nesting.separates]
    have inside : ∀ y, q ∉ y → Nesting.within ⟨d, some q⟩ (y ++ [q]) = some ⟨d, none⟩ := by
      intro y hy
      induction y with
      | nil => simp [Nesting.within, Nesting.separates, Nesting.advance]
      | cons c y ih =>
        obtain ⟨hc, hy⟩ := not_or.1 (mt List.mem_cons.2 hy)
        have hstay : Nesting.advance ⟨d, some q⟩ c = ⟨d, some q⟩ := if_neg (Ne.symm hc)
        rw [List.cons_append, Nesting.within, hstay, ih hy]
        rfl
    rw [Nesting.within, hsep, hopen, if_neg (by decide), inside y hy]
  · induction x with
    | nil => rfl
    | cons c x ih =>
      obtain ⟨hc, hx⟩ := List.forall_mem_cons.1 h
      simp only [List.mem_cons, List.not_mem_nil, or_false, not_or] at hc
      have hstay : Nesting.advance ⟨d, none⟩ c = ⟨d, none⟩ := by simp [Nesting.advance, hc]
      have hsep : Nesting.separates ⟨d, none⟩ c = false := by simp [Nesting.separates, hc]
      rw [Nesting.within, hsep, hstay, if_neg (by decide), ih hx]

theorem inStep_of_smooth (h : ∀ x ∈ xs, 1 < x.length → Smooth x) : InStep d xs := by
  induction xs generalizing d with
  | nil => trivial
  | cons x xs ih =>
    obtain ⟨hx, hxs⟩ := List.forall_mem_cons.1 h
    exact ⟨fun hlong => (hx hlong).within, ih hxs⟩

/-- The lexemes of a front of a selector and of brackets and commas behind it. -/
theorem lexemes_front_chars (h : front <+: lexemes l) (ht : ∀ c ∈ t, c = ')' ∨ c = ',') :
    lexemes (front.flatten ++ t) = front ++ t.map fun c => [c] := by
  obtain ⟨rest, hrest⟩ := h
  have hstar : t.head? ≠ some '*' := by
    intro hhead
    rcases ht _ (List.mem_of_mem_head? hhead) with hc | hc <;> cases hc
  have hstops : ∀ c ∈ t, c ∉ selectorStops := by
    intro c hc
    rcases ht c hc with rfl | rfl <;> decide
  rw [lexemes_front hrest.symm hstar, lexemes_chars hstops]

theorem InStep.pieces_eq (h : InStep 0 front) (hfront : front <+: lexemes l)
    (ht : ∀ c ∈ t, c = ')' ∨ c = ',') :
    pieces {} (front.flatten ++ t) = lexedPieces (front.flatten ++ t) := by
  have hquote : ∀ c ∈ t, ¬ IsQuote c := by
    intro c hc
    rcases ht c hc with rfl | rfl <;> decide
  have hlexemes : ∀ x ∈ front, IsLexeme x := fun x hx => isLexeme_of_mem (hfront.subset hx)
  rw [pieces_eq_lexedPieces_iff, lexemes_front_chars hfront ht]
  exact (segments_lexemes hlexemes h _ _).2 (segments_chars hquote)

/-- If a front of a selector goes on as it is read whatever brackets and commas follow, then
splitting has not been put out of step. -/
theorem inStep_of_pieces_eq (hl : IsSelector l)
    (h : ∀ front t, front <+: lexemes l → (∀ c ∈ t, c = ')' ∨ c = ',') →
      IsSelector (front.flatten ++ t) →
      pieces {} (front.flatten ++ t) = lexedPieces (front.flatten ++ t)) :
    InStep 0 (lexemes l) := by
  by_contra hout
  obtain ⟨ys, x, zs, hsplit, hys, hlong, hx⟩ := exists_of_not_inStep hout
  obtain ⟨t, ht, hne⟩ := exists_segments_ne hlong hx
  have hfront : ys ++ [x] <+: lexemes l := ⟨zs, by rw [hsplit]; simp⟩
  have hlexemes := lexemes_front_chars hfront ht
  have hselector : IsSelector ((ys ++ [x]).flatten ++ t) := by
    obtain ⟨⟨c, hc, hleads⟩, hflat⟩ := isSelector_iff.1 hl
    refine isSelector_iff.2 ⟨⟨c, ?_, hleads⟩, ?_⟩
    · have hwhole : l = (ys ++ [x]).flatten ++ zs.flatten := by
        rw [← hflat, hsplit]
        simp
      have hfilled : (ys ++ [x]).flatten ≠ [] := by
        have : x ≠ [] := List.ne_nil_of_length_pos (by omega)
        simp [this]
      obtain ⟨e, es, hcons⟩ := List.exists_cons_of_ne_nil hfilled
      rw [hwhole, hcons] at hc
      rw [hcons]
      exact hc
    · rw [hlexemes, List.flatten_append, ← List.flatMap_def, List.flatMap_singleton']
  have hlexeme : ∀ y ∈ ys, IsLexeme y := fun y hy =>
    isLexeme_of_mem (by rw [hsplit]; exact List.mem_append_left _ hy)
  have hpieces := h _ t hfront ht hselector
  rw [pieces_eq_lexedPieces_iff, hlexemes, List.flatten_append, List.flatten_singleton,
    List.append_assoc, List.append_assoc] at hpieces
  exact hne ((segments_lexemes hlexeme hys _ _).1 hpieces)

/-- **When a selector is split as it is read.** Splitting cuts a selector at the commas outside its
strings, its comments and its brackets if it keeps in step with the lexemes: if it comes out of
every string and every comment as it went in.  And it has to keep in step for that: if it does not,
then some selector that starts with the same lexemes is split elsewhere.  Strings that have their
marks at their ends only, and comments without commas, quotes and brackets, keep it in step. -/
theorem splitSelectors_lexed (h : IsSelector l) :
    [','].intercalate (lexedPieces l) = l ∧
    (InStep 0 (lexemes l) → splitSelectors l = (entries (lexedPieces l)).map String.ofList) ∧
    (InStep 0 (lexemes l) ↔ ∀ front t, front <+: lexemes l → (∀ c ∈ t, c = ')' ∨ c = ',') →
      IsSelector (front.flatten ++ t) →
      pieces {} (front.flatten ++ t) = lexedPieces (front.flatten ++ t)) ∧
    ((∀ x ∈ lexemes l, 1 < x.length → Smooth x) → InStep 0 (lexemes l)) := by
  have hflat := (isSelector_iff.1 h).2
  refine ⟨?_, ?_, ⟨?_, inStep_of_pieces_eq h⟩, inStep_of_smooth⟩
  · rw [lexedPieces, intercalate_cutLexemes, hflat]
  · intro hstep
    have hpieces := hstep.pieces_eq List.prefix_rfl (t := []) nofun
    rw [List.append_nil, hflat] at hpieces
    rw [splitSelectors_eq, hpieces]
  · intro hstep front t hfront ht _
    obtain ⟨rest, hrest⟩ := hfront
    rw [← hrest, inStep_append] at hstep
    exact hstep.1.pieces_eq ⟨rest, hrest⟩ ht

/-- A comma in a string, a comment, and a comma that separates. -/
theorem splitSelectors_lexed_string :
    IsSelector "a[t=\",\"]/**/,.b".toList ∧
    splitSelectors "a[t=\",\"]/**/,.b".toList = ["a[t=\",\"]/**/", ".b"] := by
  have h : IsSelector "a[t=\",\"]/**/,.b".toList := by decide +kernel
  have hstep : InStep 0 (lexemes "a[t=\",\"]/**/,.b".toList) := by decide +kernel
  obtain ⟨-, hsplit, -⟩ := splitSelectors_lexed h
  refine ⟨h, (hsplit hstep).trans ?_⟩
  decide +kernel

/-- Behind an escaped mark a comma is not split at, and in a comment one is. -/
theorem splitSelectors_out_of_step :
    (IsSelector "[t=\"\\\"\"],.b".toList ∧
      lexedPieces "[t=\"\\\"\"],.b".toList = ["[t=\"\\\"\"]".toList, ".b".toList] ∧
      splitSelectors "[t=\"\\\"\"],.b".toList = ["[t=\"\\\"\"],.b"]) ∧
    IsSelector "a/*,*/b".toList ∧ lexedPieces "a/*,*/b".toList = ["a/*,*/b".toList] ∧
      splitSelectors "a/*,*/b".toList = ["a/*", "*/b"] := by
  decide +kernel

end Spriting.Css

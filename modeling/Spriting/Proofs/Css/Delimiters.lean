import Spriting.Proofs.Css.Pieces

/-!
# Strings, comments and groups

A string, a comment and a group of brackets go on to the mark that closes them, so
what follows does not matter to them, and they neither start nor end with a blank.

* `string_local`, `comment_local`, `group_local`: what follows does not matter;
* `string_inked`, `comment_inked`, `group_inked`: no blanks at the ends.
-/

namespace Spriting.Css

open Text

namespace Reader

/-! ## Closing marks -/

theorem closeQuote_mark (mark : Char) (s : List Char) :
    closeQuote mark (mark :: s) = some ([mark], s) := by
  rw [closeQuote.eq_def]
  simp

theorem closeQuote_escape {mark d : Char} (s : List Char) (hmark : '\\' ≠ mark) (hd : d ≠ '\n') :
    closeQuote mark ('\\' :: d :: s) =
      (closeQuote mark s).map fun p => ('\\' :: d :: p.1, p.2) := by
  rw [closeQuote.eq_def]
  simp [hmark, hd]

theorem closeQuote_plain {mark c : Char} (s : List Char) (hmark : c ≠ mark) (hc : c ≠ '\\') :
    closeQuote mark (c :: s) = (closeQuote mark s).map fun p => (c :: p.1, p.2) := by
  rw [closeQuote.eq_def]
  simp [hmark, hc]

theorem closeQuote_local {mark : Char} {s l r : List Char} (h : closeQuote mark s = some (l, r))
    (r' : List Char) : closeQuote mark (l ++ r') = some (l, r') := by
  fun_induction closeQuote mark s generalizing l r with
  | case1 => cases h
  | case2 =>
    cases h
    exact closeQuote_mark mark r'
  | case3 => cases h
  | case4 => cases h
  | case5 d ds hd hmark ih =>
    obtain ⟨p, hp, he⟩ := Option.map_eq_some_iff.1 h
    cases he
    rw [List.cons_append, List.cons_append, closeQuote_escape _ hmark hd, ih hp]
    rfl
  | case6 c cs hmark hc ih =>
    obtain ⟨p, hp, he⟩ := Option.map_eq_some_iff.1 h
    cases he
    rw [List.cons_append, closeQuote_plain _ hmark hc, ih hp]
    rfl

theorem closeComment_close (s : List Char) :
    closeComment ('*' :: '/' :: s) = some (['*', '/'], s) := by
  rw [closeComment]

theorem closeComment_cons {c : Char} {s : List Char} (h : c = '*' → s.head? ≠ some '/') :
    closeComment (c :: s) = (closeComment s).map fun p => (c :: p.1, p.2) := by
  rw [closeComment]
  rintro cs rfl rfl
  exact h rfl rfl

theorem closeComment_ne_nil {s l r : List Char} (h : closeComment s = some (l, r)) : l ≠ [] := by
  fun_induction closeComment s with
  | case1 =>
    cases h
    simp
  | case2 =>
    obtain ⟨p, -, he⟩ := Option.map_eq_some_iff.1 h
    cases he
    simp
  | case3 => cases h

theorem closeComment_head {s l r : List Char} (h : closeComment s = some (l, r)) :
    l.head? = s.head? := by
  obtain ⟨c, l, rfl⟩ := List.exists_cons_of_ne_nil (closeComment_ne_nil h)
  rw [closeComment_append h]
  rfl

theorem closeComment_local {s l r : List Char} (h : closeComment s = some (l, r))
    (r' : List Char) : closeComment (l ++ r') = some (l, r') := by
  fun_induction closeComment s generalizing l r with
  | case1 cs =>
    cases h
    exact closeComment_close r'
  | case2 c cs hc ih =>
    obtain ⟨p, hp, he⟩ := Option.map_eq_some_iff.1 h
    cases he
    rw [List.cons_append, closeComment_cons, ih hp]
    · rfl
    · rintro rfl hhead
      have same : (p.1 ++ r').head? = cs.head? := by
        obtain ⟨d, l, hl⟩ := List.exists_cons_of_ne_nil (closeComment_ne_nil hp)
        rw [← closeComment_head hp, hl]
        rfl
      obtain ⟨ds, rfl⟩ := List.head?_eq_some_iff.1 (same.symm.trans hhead)
      exact hc ds rfl rfl
  | case3 => cases h

theorem closeGroup_local {s l r : List Char} (h : closeGroup s = some (l, r)) (r' : List Char) :
    closeGroup (l ++ r') = some (l, r') := by
  fun_induction closeGroup s generalizing l r with
  | case1 => cases h
  | case2 =>
    cases h
    simp [closeGroup]
  | case3 c cs hc ih =>
    obtain ⟨p, hp, he⟩ := Option.map_eq_some_iff.1 h
    cases he
    simp [closeGroup, hc, ih hp]

theorem closeQuote_last {mark : Char} {s l r : List Char} (h : closeQuote mark s = some (l, r)) :
    l.getLast? = some mark := by
  fun_induction closeQuote mark s generalizing l r with
  | case1 => cases h
  | case2 =>
    cases h
    rfl
  | case3 => cases h
  | case4 => cases h
  | case5 d ds hd hmark ih =>
    obtain ⟨p, hp, he⟩ := Option.map_eq_some_iff.1 h
    cases he
    simp [List.getLast?_cons, ih hp]
  | case6 c cs hmark hc ih =>
    obtain ⟨p, hp, he⟩ := Option.map_eq_some_iff.1 h
    cases he
    simp [List.getLast?_cons, ih hp]

theorem closeComment_last {s l r : List Char} (h : closeComment s = some (l, r)) :
    l.getLast? = some '/' := by
  fun_induction closeComment s generalizing l r with
  | case1 =>
    cases h
    rfl
  | case2 c cs hc ih =>
    obtain ⟨p, hp, he⟩ := Option.map_eq_some_iff.1 h
    cases he
    simp [List.getLast?_cons, ih hp]
  | case3 => cases h

theorem closeGroup_last {s l r : List Char} (h : closeGroup s = some (l, r)) :
    l.getLast? = some ')' := by
  fun_induction closeGroup s generalizing l r with
  | case1 => cases h
  | case2 =>
    cases h
    rfl
  | case3 c cs hc ih =>
    obtain ⟨p, hp, he⟩ := Option.map_eq_some_iff.1 h
    cases he
    simp [List.getLast?_cons, ih hp]

/-! ## Strings -/

/-- A character that opens a string. -/
def IsQuote (c : Char) : Prop := c = '"' ∨ c = '\''

instance (c : Char) : Decidable (IsQuote c) := inferInstanceAs (Decidable (_ ∨ _))

theorem string_quote {mark : Char} (s : List Char) (h : IsQuote mark) :
    string.read (mark :: s) = (closeQuote mark s).map fun p => (mark :: p.1, p.2) := by
  rcases h with rfl | rfl
  · simp only [string, Reader.orElse, quotedBy, if_true]
    rw [if_neg (by decide), Option.or_none]
  · simp only [string, Reader.orElse, quotedBy, if_true]
    rw [if_neg (by decide), Option.none_or]

theorem string_declines {c : Char} (s : List Char) (h : ¬ IsQuote c) :
    string.read (c :: s) = none := by
  have h1 : c ≠ '"' := fun hc => h (.inl hc)
  have h2 : c ≠ '\'' := fun hc => h (.inr hc)
  simp [string, Reader.orElse, quotedBy, h1, h2]

theorem string_eq_some {s l r : List Char} (h : string.read s = some (l, r)) :
    ∃ mark x t, IsQuote mark ∧ l = mark :: x ∧ s = mark :: t ∧ closeQuote mark t = some (x, r) := by
  cases s with
  | nil => cases h
  | cons c t =>
    by_cases hc : IsQuote c
    · rw [string_quote t hc] at h
      obtain ⟨p, hp, he⟩ := Option.map_eq_some_iff.1 h
      cases he
      exact ⟨c, p.1, t, hc, rfl, rfl, hp⟩
    · rw [string_declines t hc] at h
      cases h

theorem string_local : string.Local := by
  intro s l r h r'
  obtain ⟨mark, x, t, hmark, rfl, rfl, hclose⟩ := string_eq_some h
  rw [List.cons_append, string_quote _ hmark, closeQuote_local hclose]
  rfl

theorem string_inked : string.Inked := by
  intro s l r h
  obtain ⟨mark, x, t, hmark, rfl, rfl, hclose⟩ := string_eq_some h
  have ink : isBlank mark = false := by
    rcases hmark with rfl | rfl <;> decide
  refine ⟨by simpa using ink, ?_⟩
  simpa [List.getLast?_cons, closeQuote_last hclose] using ink

theorem string_yields {p : Char → Bool} (h : ∀ c, IsQuote c → p c = false) :
    string.Yields (char p) := by
  intro s l r hread r'
  obtain ⟨c, hc, rfl, -⟩ := char_eq_some hread
  apply string_declines
  intro hq
  rw [h c hq] at hc
  cases hc

/-! ## Comments and groups -/

theorem comment_open (s : List Char) :
    comment.read ('/' :: '*' :: s) = (closeComment s).map fun p => ('/' :: '*' :: p.1, p.2) := rfl

theorem comment_declines {c : Char} {s : List Char} (h : c = '/' → s.head? ≠ some '*') :
    comment.read (c :: s) = none := by
  simp only [comment]
  split
  · rename_i cs heq
    cases heq
    exact absurd rfl (h rfl)
  · rfl

theorem comment_eq_some {s l r : List Char} (h : comment.read s = some (l, r)) :
    ∃ x t, l = '/' :: '*' :: x ∧ s = '/' :: '*' :: t ∧ closeComment t = some (x, r) := by
  simp only [comment] at h
  split at h
  · rename_i t
    obtain ⟨p, hp, he⟩ := Option.map_eq_some_iff.1 h
    cases he
    exact ⟨p.1, t, rfl, rfl, hp⟩
  · cases h

theorem comment_local : comment.Local := by
  intro s l r h r'
  obtain ⟨x, t, rfl, rfl, hclose⟩ := comment_eq_some h
  rw [List.cons_append, List.cons_append, comment_open, closeComment_local hclose]
  rfl

theorem comment_inked : comment.Inked := by
  intro s l r h
  obtain ⟨x, t, rfl, rfl, hclose⟩ := comment_eq_some h
  have ink : isBlank '/' = false := by decide
  refine ⟨by simpa using ink, ?_⟩
  simpa [List.getLast?_cons, closeComment_last hclose] using ink

theorem group_open (s : List Char) :
    group.read ('(' :: s) = (closeGroup s).map fun p => ('(' :: p.1, p.2) := rfl

theorem group_declines {c : Char} (s : List Char) (h : c ≠ '(') : group.read (c :: s) = none := by
  simp only [group]
  split
  · rename_i cs heq
    cases heq
    exact absurd rfl h
  · rfl

theorem group_eq_some {s l r : List Char} (h : group.read s = some (l, r)) :
    ∃ x t, l = '(' :: x ∧ s = '(' :: t ∧ closeGroup t = some (x, r) := by
  simp only [group] at h
  split at h
  · rename_i t
    obtain ⟨p, hp, he⟩ := Option.map_eq_some_iff.1 h
    cases he
    exact ⟨p.1, t, rfl, rfl, hp⟩
  · cases h

theorem group_local : group.Local := by
  intro s l r h r'
  obtain ⟨x, t, rfl, rfl, hclose⟩ := group_eq_some h
  rw [List.cons_append, group_open, closeGroup_local hclose]
  rfl

theorem group_inked : group.Inked := by
  intro s l r h
  obtain ⟨x, t, rfl, rfl, hclose⟩ := group_eq_some h
  have open_ink : isBlank '(' = false := by decide
  have close_ink : isBlank ')' = false := by decide
  refine ⟨by simpa using open_ink, ?_⟩
  simpa [List.getLast?_cons, closeGroup_last hclose] using close_ink

theorem string_yields_group : string.Yields group := by
  intro s l r h r'
  obtain ⟨x, t, rfl, -⟩ := group_eq_some h
  exact string_declines _ (by decide)

theorem group_yields {p : Char → Bool} (h : p '(' = false) : group.Yields (char p) := by
  intro s l r hread r'
  obtain ⟨c, hc, rfl, -⟩ := char_eq_some hread
  apply group_declines
  rintro rfl
  rw [h] at hc
  cases hc

end Reader

end Spriting.Css

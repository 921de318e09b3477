import Spriting.Proofs.Css.Lexemes

/-!
# Preludes

A prelude steps over comments, so at a slash before an asterisk it depends on
whether the comment is closed, however far away that is.  In front of other text
it is read back where that text closes no comment that was open before.

* `quiet_append`: when a text that is put together closes no comment;
* `prelude_reads_back`, `prelude_reads_back_space`: reading a prelude back.
-/

namespace Spriting.Css

open Text Reader

/-- Nothing in `s` closes a comment. -/
def Quiet (s : List Char) : Prop := closeComment s = none

theorem quiet_nil : Quiet [] := by
  simp [Quiet, closeComment]

theorem quiet_cons {c : Char} {s : List Char} :
    Quiet (c :: s) ↔ ¬ (c = '*' ∧ s.head? = some '/') ∧ Quiet s := by
  by_cases h : c = '*' ∧ s.head? = some '/'
  · obtain ⟨rfl, hs⟩ := h
    obtain ⟨t, rfl⟩ := List.head?_eq_some_iff.1 hs
    simp [Quiet, closeComment]
  · rw [Quiet, closeComment_cons fun hc hs => h ⟨hc, hs⟩]
    simp [Quiet, h]

/-- No text without an asterisk closes a comment. -/
theorem quiet_of_notMem {s : List Char} (h : '*' ∉ s) : Quiet s := by
  induction s with
  | nil => exact quiet_nil
  | cons c s ih =>
    obtain ⟨hc, hs⟩ := not_or.1 (mt List.mem_cons.2 h)
    exact quiet_cons.2 ⟨fun hstar => hc hstar.1.symm, ih hs⟩

/-- A text that is put together closes a comment in one of its parts or where they meet. -/
theorem quiet_append {a b : List Char} :
    Quiet (a ++ b) ↔
      Quiet a ∧ Quiet b ∧ ¬ (a.getLast? = some '*' ∧ b.head? = some '/') := by
  induction a with
  | nil => simp [quiet_nil]
  | cons c a ih =>
    rw [List.cons_append, quiet_cons, ih, quiet_cons]
    cases a with
    | nil => simp [quiet_nil, and_comm]
    | cons d a => simp [List.getLast?_cons_cons, and_assoc]

theorem Quiet.left {a b : List Char} (h : Quiet (a ++ b)) : Quiet a := (quiet_append.1 h).1

theorem Quiet.right {a b : List Char} (h : Quiet (a ++ b)) : Quiet b := (quiet_append.1 h).2.1

/-- `r'` may stand where `r` stood: it closes no comment that `r` leaves open. -/
structure Shields (r r' : List Char) : Prop where
  head : ∀ c ∈ r'.head?, c ≠ '*' ∧ c ≠ '/'
  quiet : Quiet r → Quiet r'

theorem Shields.append {r r' : List Char} (h : Shields r r') {m : List Char}
    (hm : Quiet (m ++ r)) : Quiet (m ++ r') := by
  obtain ⟨hleft, hright, -⟩ := quiet_append.1 hm
  refine quiet_append.2 ⟨hleft, h.quiet hright, ?_⟩
  rintro ⟨-, hslash⟩
  exact (h.head '/' hslash).2 rfl

/-! ## Pieces of a prelude -/

/-- What a prelude goes on with. -/
def preludePiece : Reader :=
  ((Reader.comment.orElse string).orElse group).orElse (outside valueStops)

theorem preludePiece_tidy : preludePiece.Tidy :=
  ((comment_inked.orElse string_inked).orElse group_inked).tidy.orElse (char_tidy _)

theorem comment_declines_shielded {m r r' : List Char} (hs : Shields r r')
    (h : Reader.comment.read ('/' :: (m ++ r)) = none) :
    Reader.comment.read ('/' :: (m ++ r')) = none := by
  cases m with
  | nil =>
    apply comment_declines
    intro _ hstar
    exact (hs.head '*' hstar).1 rfl
  | cons d m =>
    by_cases hd : d = '*'
    · subst hd
      have quiet : Quiet (m ++ r) := by
        simpa [Quiet, comment_open] using h
      rw [List.cons_append, comment_open, hs.append quiet]
      rfl
    · apply comment_declines
      intro _ hstar
      exact hd (Option.some.inj hstar)

/-- A piece of a prelude notices of what follows it only whether a slash opens a comment. -/
theorem preludePiece_congr {x s s' : List Char} (h : preludePiece.read (x ++ s) = some (x, s))
    (hslash : x = ['/'] → Reader.comment.read ('/' :: s) = none →
      Reader.comment.read ('/' :: s') = none) :
    preludePiece.read (x ++ s') = some (x, s') := by
  rcases orElse_eq_some_iff.1 h with h | ⟨hnone, h⟩
  · apply orElse_of_some
    rcases orElse_eq_some_iff.1 h with h | ⟨hnone, h⟩
    · apply orElse_of_some
      rcases orElse_eq_some_iff.1 h with h | ⟨hnone, h⟩
      · exact orElse_of_some (comment_local _ _ _ h _)
      · obtain ⟨mark, y, t, hmark, rfl, -⟩ := string_eq_some h
        rw [orElse_of_none]
        · exact string_local _ _ _ h _
        · apply comment_declines
          rintro rfl
          rcases hmark with hmark | hmark <;> cases hmark
    · obtain ⟨y, t, rfl, -⟩ := group_eq_some h
      rw [orElse_of_none]
      · exact group_local _ _ _ h _
      · refine orElse_eq_none_iff.2 ⟨comment_declines ?_, string_declines _ (by decide)⟩
        intro hslash
        cases hslash
  · obtain ⟨c, hc, rfl, -⟩ := char_eq_some h
    obtain ⟨hnone, hgroup⟩ := orElse_eq_none_iff.1 hnone
    obtain ⟨hcomment, -⟩ := orElse_eq_none_iff.1 hnone
    have no_quote : ¬ IsQuote c := by
      rintro (rfl | rfl) <;> simp [valueStops] at hc
    have no_group : '(' ≠ c := by
      rintro rfl
      simp [valueStops] at hc
    have no_comment : Reader.comment.read (c :: s') = none := by
      by_cases hc : c = '/'
      · subst hc
        exact hslash rfl hcomment
      · exact comment_declines fun h => absurd h hc
    rw [preludePiece, orElse_of_none]
    · exact char_cons _ hc
    · have no_delimited : (Reader.comment.orElse string).read (c :: s') = none :=
        orElse_eq_none_iff.2 ⟨no_comment, string_declines _ no_quote⟩
      exact orElse_eq_none_iff.2 ⟨no_delimited, group_declines _ no_group.symm⟩

/-- A piece of a prelude does not notice what shields what followed it. -/
theorem preludePiece_transfer {x m r r' : List Char} (hs : Shields r r')
    (h : preludePiece.read (x ++ (m ++ r)) = some (x, m ++ r)) :
    preludePiece.read (x ++ (m ++ r')) = some (x, m ++ r') :=
  preludePiece_congr h fun _ => comment_declines_shielded hs

/-- A piece is read where nothing follows the prelude. -/
theorem preludePiece_alone {x m r : List Char}
    (h : preludePiece.read (x ++ (m ++ r)) = some (x, m ++ r)) :
    preludePiece.read (x ++ m) = some (x, m) := by
  have shields : Shields r [] := ⟨nofun, fun _ => quiet_nil⟩
  simpa using preludePiece_transfer shields h

theorem preludePiece_char {c : Char} (s : List Char) (hc : c ∉ '/' :: valueStops) :
    preludePiece.read (c :: s) = some ([c], s) := by
  simp only [valueStops, List.mem_cons, List.not_mem_nil, or_false, not_or] at hc
  rw [preludePiece, orElse_of_none]
  · exact char_cons _ (by simp [valueStops, hc])
  · refine orElse_eq_none_iff.2 ⟨orElse_eq_none_iff.2 ⟨?_, ?_⟩, group_declines _ (by simp [hc])⟩
    · exact comment_declines fun h => absurd h hc.1
    · exact string_declines _ (by simp [IsQuote, hc])

theorem preludePiece_stops {c : Char} (s : List Char) (h : IsStop c) :
    preludePiece.read (c :: s) = none := by
  rcases h with rfl | rfl | rfl
  all_goals
    refine orElse_eq_none_iff.2 ⟨orElse_eq_none_iff.2 ⟨orElse_eq_none_iff.2 ⟨?_, ?_⟩, ?_⟩, ?_⟩
    · exact comment_declines fun hslash => absurd hslash (by decide)
    · exact string_declines _ (by decide)
    · exact group_declines _ (by decide)
    · exact outside_stops _ (by decide)

/-! ## Reading a prelude back -/

/-- Without the blanks behind it, a prelude is the same chain in front of other text. -/
theorem prelude_core {s l r r' : List Char}
    (h : Terminal.prelude.reader.read s = some (l, r)) (hs : Shields r r') :
    ∃ x m, trim l = x ++ m ∧ valueStart.read (x ++ (m ++ r')) = some (x, m ++ r') ∧
      Chain preludePiece m r' := by
  obtain ⟨x, m, rfl, hx, hm, -⟩ := (followedBy_eq_some_iff (a := valueStart)).1 h
  obtain ⟨b, hb, -, hcore⟩ := hm.trimEnd preludePiece_tidy
  refine ⟨x, Text.trimEnd m, valueStart_inked.trim_append hx, valueStart_local _ _ _ hx _, ?_⟩
  have shields : Shields (b ++ r) r' := ⟨hs.head, fun hq => hs.quiet hq.right⟩
  exact hcore.transfer fun x m _ hread => preludePiece_transfer shields hread

theorem prelude_reads_back {s l r r' : List Char} {c : Char}
    (h : Terminal.prelude.reader.read s = some (l, r)) (hc : IsStop c)
    (hs : Shields r (c :: r')) :
    Terminal.prelude.reader.read (trim l ++ c :: r') = some (trim l, c :: r') := by
  obtain ⟨x, m, hl, hx, hm⟩ := prelude_core h hs
  rw [hl, List.append_assoc]
  exact followedBy_eq_some_iff.2 ⟨x, m, rfl, hx, hm, preludePiece_stops r' hc⟩

theorem Reader.Chain.snoc {a : Reader} {l r : List Char} {c : Char} (h : Chain a l (c :: r))
    (hc : a.read (c :: r) = some ([c], r)) : Chain a (l ++ [c]) r := by
  exact h.append (@Chain.cons a [c] [] r hc (.nil r))

/-- With a space behind it, a prelude is read back together with that space. -/
theorem prelude_reads_back_space {s l r r' : List Char} {c : Char}
    (h : Terminal.prelude.reader.read s = some (l, r)) (hc : IsStop c)
    (hs : Shields r (' ' :: c :: r')) :
    Terminal.prelude.reader.read (trim l ++ ' ' :: c :: r') = some (trim l ++ [' '], c :: r') := by
  obtain ⟨x, m, hl, hx, hm⟩ := prelude_core h hs
  have hspace := hm.snoc (preludePiece_char (c :: r') (by decide))
  rw [hl, List.append_assoc]
  refine followedBy_eq_some_iff.2
    ⟨x, m ++ [' '], List.append_assoc .., ?_, hspace, preludePiece_stops r' hc⟩
  rw [List.append_assoc]
  exact hx

end Spriting.Css

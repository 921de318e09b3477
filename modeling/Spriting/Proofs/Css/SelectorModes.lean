import Spriting.Proofs.Css.Lexemes

/-!
# Selectors character by character

Read one character after another, a selector is always in one of a few modes:
outside everything, behind a slash, or somewhere in a string or a comment.

* `run_of_closeQuote`, `run_of_closeComment`: a string and a comment lead outside
  everything again;
* `closeQuote_of_run`, `closeComment_of_run`: what leads there closes them.
-/

namespace Spriting.Css

open Text Reader

/-- Where in a selector a character stands. -/
inductive Mode where
  | plain
  /-- Behind a slash that opens no comment yet. -/
  | slash
  | quoted (mark : { c : Char // IsQuote c })
  /-- Behind a backslash in a string. -/
  | escaped (mark : { c : Char // IsQuote c })
  | comment
  /-- Behind an asterisk in a comment. -/
  | star

namespace Mode

/-- What a character outside everything leads to. -/
def enter (c : Char) : Option Mode :=
  if h : IsQuote c then some (quoted ⟨c, h⟩)
  else if c = '/' then some slash
  else if IsStop c then none
  else some plain

def step : Mode → Char → Option Mode
  | plain, c => enter c
  | slash, c => if c = '*' then some comment else enter c
  | quoted mark, c =>
    if c = mark then some plain else if c = '\\' then some (escaped mark) else some (quoted mark)
  | escaped mark, c => if c = '\n' then none else some (quoted mark)
  | comment, c => if c = '*' then some star else some comment
  | star, c => if c = '/' then some plain else if c = '*' then some star else some comment

/-- The mode behind a text, unless the text cannot stand in a selector. -/
def run : Mode → List Char → Option Mode
  | m, [] => some m
  | m, c :: cs => (m.step c).bind (·.run cs)

theorem run_append (m : Mode) (a b : List Char) : m.run (a ++ b) = (m.run a).bind (·.run b) := by
  induction a generalizing m with
  | nil => rfl
  | cons c a ih =>
    simp only [List.cons_append, run]
    cases m.step c with
    | none => rfl
    | some m' => exact ih m'

theorem run_append_of_some {m m' : Mode} {a b : List Char} (h : m.run a = some m') :
    m.run (a ++ b) = m'.run b := by
  rw [run_append, h]
  rfl

/-! ## Strings and comments -/

theorem run_of_closeQuote {mark : { c : Char // IsQuote c }} {s x r : List Char}
    (h : closeQuote mark s = some (x, r)) : (quoted mark).run x = some plain := by
  generalize hm : (mark : Char) = m at h
  fun_induction closeQuote m s generalizing x r with
  | case1 => cases h
  | case2 =>
    cases h
    simp [run, step, hm]
  | case3 => cases h
  | case4 => cases h
  | case5 d ds hd hmark ih =>
    obtain ⟨p, hp, he⟩ := Option.map_eq_some_iff.1 h
    cases he
    simp [run, step, hm, hmark, hd, ih hp]
  | case6 c cs hmark hc ih =>
    obtain ⟨p, hp, he⟩ := Option.map_eq_some_iff.1 h
    cases he
    simp [run, step, hm, hmark, hc, ih hp]

/-- What blanks and commas lead to. -/
def settled : Mode → Mode
  | plain => plain
  | slash => plain
  | quoted mark => quoted mark
  | escaped mark => quoted mark
  | comment => comment
  | star => comment

/-- A text that leads out of a string closes it. -/
theorem closeQuote_of_run {mark : { c : Char // IsQuote c }} {m : Mode} {s : List Char}
    (h : (quoted mark).run s = some m) (hsettled : m.settled = plain) :
    ∃ x y, s = x ++ y ∧ (∀ r, closeQuote mark (x ++ r) = some (x, r)) ∧ plain.run y = some m := by
  generalize hm : (mark : Char) = c
  fun_induction closeQuote c s with
  | case1 =>
    cases h
    cases hsettled
  | case2 cs =>
    refine ⟨[c], cs, rfl, closeQuote_mark c, ?_⟩
    simpa [run, step, hm] using h
  | case3 hmark =>
    have : m = escaped mark := by simpa [run, step, hm, hmark] using h.symm
    subst this
    cases hsettled
  | case4 ds hmark => simp [run, step, hm, hmark] at h
  | case5 d ds hd hmark ih =>
    have rest : (quoted mark).run ds = some m := by
      simpa [run, step, hm, hmark, hd] using h
    obtain ⟨x, y, rfl, hx, hy⟩ := ih rest
    refine ⟨'\\' :: d :: x, y, rfl, ?_, hy⟩
    intro r
    rw [List.cons_append, List.cons_append, closeQuote_escape _ hmark hd, hx]
    rfl
  | case6 c cs hmark hc ih =>
    have rest : (quoted mark).run cs = some m := by
      simpa [run, step, hm, hmark, hc] using h
    obtain ⟨x, y, rfl, hx, hy⟩ := ih rest
    refine ⟨c :: x, y, rfl, ?_, hy⟩
    intro r
    rw [List.cons_append, closeQuote_plain _ hmark hc, hx]
    rfl

theorem run_of_closeComment {s x r : List Char} (h : closeComment s = some (x, r)) :
    comment.run x = some plain ∧ (s.head? ≠ some '/' → star.run x = some plain) := by
  fun_induction closeComment s generalizing x r with
  | case1 =>
    cases h
    exact ⟨rfl, fun _ => rfl⟩
  | case2 c cs hc ih =>
    obtain ⟨p, hp, he⟩ := Option.map_eq_some_iff.1 h
    cases he
    obtain ⟨inside, behind⟩ := ih hp
    have after_star : c = '*' → star.run p.1 = some plain := by
      rintro rfl
      apply behind
      intro hslash
      obtain ⟨ds, rfl⟩ := List.head?_eq_some_iff.1 hslash
      exact hc ds rfl rfl
    by_cases hstar : c = '*'
    · subst hstar
      exact ⟨after_star rfl, fun _ => after_star rfl⟩
    · refine ⟨by simpa [run, step, hstar] using inside, ?_⟩
      intro hslash
      have : c ≠ '/' := fun h => hslash (by simp [h])
      simpa [run, step, this, hstar] using inside
  | case3 => cases h

/-- `x` is the end of a comment. -/
def Closes (x : List Char) : Prop := ∀ r, closeComment (x ++ r) = some (x, r)

theorem Closes.cons {c : Char} {x : List Char} (h : Closes x)
    (hc : c = '*' → x.head? ≠ some '/') : Closes (c :: x) := by
  intro r
  rw [List.cons_append, closeComment_cons, h]
  · rfl
  · intro hstar
    have := closeComment_head (h r)
    rw [← this]
    exact hc hstar

/-- A text that leads out of a comment closes it. -/
theorem closeComment_of_run {m : Mode} (hsettled : m.settled = plain) (s : List Char) :
    (comment.run s = some m →
      ∃ x y, s = x ++ y ∧ Closes x ∧ plain.run y = some m) ∧
    (star.run s = some m →
      (∃ y, s = '/' :: y ∧ plain.run y = some m) ∨
        s.head? ≠ some '/' ∧ ∃ x y, s = x ++ y ∧ Closes x ∧ plain.run y = some m) := by
  induction s with
  | nil =>
    have outside : m ≠ comment ∧ m ≠ star := by
      constructor <;> (rintro rfl; cases hsettled)
    exact ⟨fun h => absurd (Option.some.inj h).symm outside.1,
      fun h => absurd (Option.some.inj h).symm outside.2⟩
  | cons c s ih =>
    obtain ⟨inside, behind⟩ := ih
    have after_star : star.run s = some m →
        ∃ x y, '*' :: s = x ++ y ∧ Closes x ∧ plain.run y = some m := by
      intro h
      rcases behind h with ⟨y, rfl, hy⟩ | ⟨hhead, x, y, rfl, hx, hy⟩
      · exact ⟨['*', '/'], y, rfl, closeComment_close, hy⟩
      · refine ⟨'*' :: x, y, rfl, hx.cons fun _ hslash => hhead ?_, hy⟩
        obtain ⟨x', rfl⟩ := List.head?_eq_some_iff.1 hslash
        rfl
    by_cases hstar : c = '*'
    · subst hstar
      exact ⟨after_star, fun h => .inr ⟨by simp, after_star h⟩⟩
    · have other : comment.run s = some m →
          ∃ x y, c :: s = x ++ y ∧ Closes x ∧ plain.run y = some m := by
        intro h
        obtain ⟨x, y, rfl, hx, hy⟩ := inside h
        exact ⟨c :: x, y, rfl, hx.cons fun h => absurd h hstar, hy⟩
      refine ⟨fun h => other (by simpa [run, step, hstar] using h), ?_⟩
      intro h
      by_cases hslash : c = '/'
      · subst hslash
        exact .inl ⟨s, rfl, h⟩
      · exact .inr ⟨by simpa using hslash, other (by simpa [run, step, hslash, hstar] using h)⟩

/-! ## Pieces of a selector -/

/-- Outside everything, or behind a slash that opens no comment in front of `s`. -/
def Ready (m : Mode) (s : List Char) : Prop := m = plain ∨ m = slash ∧ s.head? ≠ some '*'

theorem Ready.settled_eq {m : Mode} {s : List Char} (h : Ready m s) : m.settled = plain := by
  rcases h with rfl | ⟨rfl, -⟩ <;> rfl

theorem ready_of_settled {m : Mode} {c : Char} (h : m.settled = plain) (hc : c ≠ '*')
    (s : List Char) : Ready m (c :: s) := by
  cases m with
  | plain => exact .inl rfl
  | slash => exact .inr ⟨rfl, by simpa using hc⟩
  | _ => cases h

theorem Ready.step_eq {m : Mode} {c : Char} {s : List Char} (h : Ready m (c :: s)) :
    m.step c = enter c := by
  rcases h with rfl | ⟨rfl, hstar⟩
  · rfl
  · have : c ≠ '*' := by simpa using hstar
    simp [step, this]

theorem Ready.run_eq {m : Mode} {c : Char} {s x : List Char} (h : Ready m (c :: s)) :
    m.run (c :: x) = plain.run (c :: x) := by
  simp only [run, h.step_eq]
  rfl

end Mode

end Spriting.Css

/-!
# Readers

A reader takes a non-empty piece off the front of its input, or declines.  What
it takes and what it leaves make up the input again, which is why repeating a
reader ends.

* `many_append`: a repetition loses and invents nothing;
* `many_declines`: a repetition stops only where its reader declines.
-/

namespace Spriting.Css

structure Reader where
  /-- The piece taken and the rest. -/
  read : List Char → Option (List Char × List Char)
  splits : ∀ {s l r : List Char}, read s = some (l, r) → s = l ++ r ∧ l ≠ []

namespace Reader

theorem length_rest_lt (a : Reader) {s l r : List Char} (h : a.read s = some (l, r)) :
    r.length < s.length := by
  obtain ⟨rfl, hl⟩ := a.splits h
  have := List.length_pos_iff.2 hl
  rw [List.length_append]
  omega

/-- One character of a class. -/
def char (p : Char → Bool) : Reader where
  read
    | [] => none
    | c :: cs => if p c then some ([c], cs) else none
  splits {s l r} h := by
    cases s with
    | nil => simp at h
    | cons c cs =>
      simp only [Option.ite_none_right_eq_some, Option.some.injEq, Prod.mk.injEq] at h
      obtain ⟨_, rfl, rfl⟩ := h
      simp

/-- The first of two readers that does not decline. -/
def orElse (a b : Reader) : Reader where
  read s := (a.read s).or (b.read s)
  splits {s l r} h := by
    cases ha : a.read s with
    | none => exact b.splits (by simpa [ha] using h)
    | some p => exact a.splits (by simpa [ha] using h)

/-- As many pieces as a reader takes one after another, and the rest. -/
def many (a : Reader) (s : List Char) : List Char × List Char :=
  match _h : a.read s with
  | none => ([], s)
  | some (l, r) =>
    let more := a.many r
    (l ++ more.1, more.2)
termination_by s.length
decreasing_by exact a.length_rest_lt _h

theorem many_of_none {a : Reader} {s : List Char} (h : a.read s = none) : a.many s = ([], s) := by
  rw [many]
  split
  · rfl
  · simp_all

theorem many_of_some {a : Reader} {s l r : List Char} (h : a.read s = some (l, r)) :
    a.many s = (l ++ (a.many r).1, (a.many r).2) := by
  rw [many]
  split
  · simp_all
  · rename_i h'
    rw [h] at h'
    cases h'
    rfl

theorem many_append (a : Reader) (s : List Char) : s = (a.many s).1 ++ (a.many s).2 := by
  fun_induction many a s with
  | case1 s h => rfl
  | case2 s l r h more ih =>
    obtain ⟨rfl, -⟩ := a.splits h
    rw [List.append_assoc, ← ih]

theorem many_declines (a : Reader) (s : List Char) : a.read (a.many s).2 = none := by
  fun_induction many a s with
  | case1 s h => exact h
  | case2 s l r h more ih => exact ih

/-- One piece of the first reader and as many of the second as follow. -/
def followedBy (a b : Reader) : Reader where
  read s := (a.read s).map fun p => (p.1 ++ (b.many p.2).1, (b.many p.2).2)
  splits {s l r} h := by
    obtain ⟨⟨l₁, r₁⟩, h₁, h₂⟩ := Option.map_eq_some_iff.1 h
    cases h₂
    obtain ⟨rfl, hl⟩ := a.splits h₁
    refine ⟨?_, by simp [hl]⟩
    rw [List.append_assoc, ← b.many_append]

/-- One or more pieces. -/
def oneOrMore (a : Reader) : Reader := a.followedBy a

/-- A piece of the first reader and one of the second. -/
def andThen (a b : Reader) : Reader where
  read s := (a.read s).bind fun p => (b.read p.2).map fun q => (p.1 ++ q.1, q.2)
  splits {s l r} h := by
    obtain ⟨⟨l₁, r₁⟩, h₁, h₂⟩ := Option.bind_eq_some_iff.1 h
    obtain ⟨⟨l₂, r₂⟩, h₃, h₄⟩ := Option.map_eq_some_iff.1 h₂
    cases h₄
    obtain ⟨rfl, hl⟩ := a.splits h₁
    obtain ⟨rfl, _⟩ := b.splits h₃
    simp [hl]

end Reader

end Spriting.Css

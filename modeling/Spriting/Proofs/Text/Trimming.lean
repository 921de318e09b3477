import Mathlib.Data.List.TakeWhile
import Spriting.Text.Blank

/-!
# What trimming takes away

Trimming splits a text into blanks, a core without blanks at its ends, and blanks.

* `exists_trim`: the split;
* `trim_of_head`: a text of which only the blanks behind it can go.
-/

namespace Spriting.Text

/-- All of these characters are blanks. -/
def AllBlank (cs : List Char) : Prop := ∀ c ∈ cs, isBlank c = true

instance (cs : List Char) : Decidable (AllBlank cs) :=
  decidable_of_iff (cs.all isBlank = true) List.all_eq_true

theorem AllBlank.reverse {cs : List Char} (h : AllBlank cs) : AllBlank cs.reverse :=
  fun c hc => h c (List.mem_reverse.1 hc)

theorem exists_trimStart (cs : List Char) : ∃ b, AllBlank b ∧ cs = b ++ trimStart cs :=
  ⟨cs.takeWhile isBlank, fun _ h => List.mem_takeWhile_imp h, List.takeWhile_append_dropWhile.symm⟩

theorem exists_trimEnd (cs : List Char) : ∃ b, AllBlank b ∧ cs = trimEnd cs ++ b := by
  obtain ⟨b, hb, hcs⟩ := exists_trimStart cs.reverse
  refine ⟨b.reverse, hb.reverse, ?_⟩
  rw [trimEnd, ← List.reverse_append, ← hcs, List.reverse_reverse]

theorem exists_trim (cs : List Char) :
    ∃ b b', AllBlank b ∧ AllBlank b' ∧ cs = b ++ (trim cs ++ b') := by
  obtain ⟨b, hb, hcs⟩ := exists_trimStart cs
  obtain ⟨b', hb', hcs'⟩ := exists_trimEnd (trimStart cs)
  exact ⟨b, b', hb, hb', by rw [trim, ← hcs', ← hcs]⟩

theorem head?_trimStart {cs : List Char} {c : Char} (h : c ∈ (trimStart cs).head?) :
    isBlank c = false := by
  have := List.head?_dropWhile_not isBlank cs
  rw [show cs.dropWhile isBlank = trimStart cs from rfl, Option.mem_def.1 h] at this
  simpa using this

theorem getLast?_trimEnd {cs : List Char} {c : Char} (h : c ∈ (trimEnd cs).getLast?) :
    isBlank c = false := by
  rw [trimEnd, List.getLast?_reverse] at h
  exact head?_trimStart h

theorem head?_trim {cs : List Char} {c : Char} (h : c ∈ (trim cs).head?) : isBlank c = false := by
  obtain ⟨b, -, hb⟩ := exists_trimEnd (trimStart cs)
  have hfirst : c ∈ (trimStart cs).head? := by
    rw [hb]
    change c ∈ (trim cs).head? at h
    cases ht : trim cs with
    | nil => simp [ht] at h
    | cons d ds =>
      rw [ht] at h
      rw [show trimEnd (trimStart cs) = d :: ds from ht]
      exact h
  exact head?_trimStart hfirst

theorem trim_eq_nil_iff {cs : List Char} : trim cs = [] ↔ AllBlank cs := by
  constructor
  · intro h
    obtain ⟨b, b', hb, hb', hcs⟩ := exists_trim cs
    rw [h, List.nil_append] at hcs
    rw [hcs]
    exact fun c hc => (List.mem_append.1 hc).elim (hb c) (hb' c)
  · intro h
    rw [trim, trimStart, List.dropWhile_eq_nil_iff.2 h]
    rfl

theorem trim_trim (cs : List Char) : trim (trim cs) = trim cs :=
  trim_eq_self (fun _ h => head?_trim h) (fun _ h => getLast?_trimEnd h)

theorem trimStart_append_of_blank {b cs : List Char} (h : AllBlank b) :
    trimStart (b ++ cs) = trimStart cs :=
  List.dropWhile_append_of_pos h

theorem trimEnd_append_of_blank {b cs : List Char} (h : AllBlank b) :
    trimEnd (cs ++ b) = trimEnd cs := by
  rw [trimEnd, List.reverse_append, trimStart_append_of_blank h.reverse, trimEnd]

/-- The core is what stands between blanks and has none at its ends. -/
theorem trim_eq_of_split {b e b' : List Char} (hb : AllBlank b) (hb' : AllBlank b')
    (hs : ∀ c ∈ e.head?, isBlank c = false) (he : ∀ c ∈ e.getLast?, isBlank c = false) :
    trim (b ++ (e ++ b')) = e := by
  rw [trim, trimStart_append_of_blank hb]
  cases e with
  | nil =>
    rw [List.nil_append, trimStart, List.dropWhile_eq_nil_iff.2 hb']
    rfl
  | cons c e =>
    rw [trimStart_eq_self (by simpa using hs), trimEnd_append_of_blank hb', trimEnd_eq_self he]

theorem trim_append_of_blank {b cs : List Char} (h : AllBlank b) : trim (cs ++ b) = trim cs := by
  obtain ⟨b₁, b₂, h₁, h₂, hcs⟩ := exists_trim cs
  have both : AllBlank (b₂ ++ b) := by
    intro c hc
    exact (List.mem_append.1 hc).elim (h₂ c) (h c)
  conv => lhs; rw [hcs]
  rw [List.append_assoc, List.append_assoc]
  exact trim_eq_of_split h₁ both (fun _ h => head?_trim h) (fun _ h => getLast?_trimEnd h)

theorem trim_blank_append {b cs : List Char} (h : AllBlank b) : trim (b ++ cs) = trim cs := by
  rw [trim, trimStart_append_of_blank h, trim]

/-- A text that starts with ink loses the blanks behind it only. -/
theorem trim_of_head {cs : List Char} (h : ∀ c ∈ cs.head?, isBlank c = false) :
    trim cs = trimEnd cs := by
  rw [trim, trimStart_eq_self h]

/-- What is not all blanks keeps what stands in front of it. -/
theorem trimEnd_append_eq (cs ds : List Char) :
    trimEnd (cs ++ ds) = if trimEnd ds = [] then trimEnd cs else cs ++ trimEnd ds := by
  have hempty : trimEnd ds = [] ↔ (ds.reverse.dropWhile isBlank).isEmpty = true := by
    simp [trimEnd, trimStart]
  rw [trimEnd, List.reverse_append, trimStart, List.dropWhile_append]
  by_cases h : trimEnd ds = []
  · rw [if_pos h, if_pos (hempty.1 h), trimEnd, trimStart]
  · rw [if_neg h, if_neg (fun hds => h (hempty.2 hds)), List.reverse_append, List.reverse_reverse,
      trimEnd, trimStart]

/-- Blanks are not taken away beyond ink. -/
theorem trimEnd_append {cs ds : List Char} (h : ∀ c ∈ cs.getLast?, isBlank c = false) :
    trimEnd (cs ++ ds) = cs ++ trimEnd ds := by
  rw [trimEnd_append_eq]
  split
  · rename_i hds
    rw [trimEnd_eq_self h, hds, List.append_nil]
  · rfl

end Spriting.Text

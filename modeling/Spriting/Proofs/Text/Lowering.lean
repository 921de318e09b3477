import Mathlib.Data.List.Infix
import Spriting.Proofs.Text.Folding
import Spriting.Text.Case

/-!
# What a text holds in lower case

Of most ASCII characters only ASCII characters are forms, and so a model of such characters is met
in the lower case of a text exactly where the text has a form of it.  The exceptions are the
letters i, k and s.

* `lowerChar_spec`: the lower case of a character, as seen by these models;
* `countP_tails_lower`: counting in the lower case is counting in any case.
-/

namespace Spriting.Text

variable {m c : Char} {model cs before : List Char}

/-- All forms of the character are ASCII characters. -/
def Plain (m : Char) : Prop := 0 < m.toNat ∧ m.toNat < 128 ∧ m ≠ 'i' ∧ m ≠ 'k' ∧ m ≠ 's'

instance (m : Char) : Decidable (Plain m) := inferInstanceAs (Decidable (_ ∧ _))

theorem Plain.foldsTo_iff (h : Plain m) : foldsTo m c = true ↔ c.toLower = m := by
  obtain ⟨-, -, hi, hk, hs⟩ := h
  simp [foldsTo, hi, hk, hs]

/-- What is no code point makes no character but U+0000. -/
theorem toNat_ofNat_of_pos {n : Nat} (h : 0 < (Char.ofNat n).toNat) : (Char.ofNat n).toNat = n := by
  by_cases hn : n.isValidChar
  · rw [Char.ofNat, dif_pos hn]
    rfl
  · rw [Char.ofNat, dif_neg hn] at h
    exact absurd h (by decide)

/-- But for the Kelvin sign no capital above ASCII has an ASCII letter. -/
theorem not_plain_of_run {run : CaseRun} (hrun : run ∈ caseRuns) (hc : run.covers c.toNat = true) :
    ¬ Plain (Char.ofNat (c.toNat + run.shift).toNat) := by
  have above : caseRuns.all fun run =>
      decide (128 ≤ (run.first : Int) + run.shift) || run.first == 0x212A && run.last == 0x212A &&
        run.shift == -8383 := by decide
  have hfirst : run.first ≤ c.toNat ∧ c.toNat ≤ run.last := by
    simp only [CaseRun.covers, Bool.and_eq_true, decide_eq_true_eq] at hc
    exact hc.1
  rintro ⟨hpos, hlow, -, hk, -⟩
  have hrange := List.all_eq_true.1 above run hrun
  simp only [Bool.or_eq_true, Bool.and_eq_true, decide_eq_true_eq, beq_iff_eq] at hrange
  rcases hrange with hrange | ⟨⟨hkelvin, hkelvin'⟩, hshift⟩
  · rw [toNat_ofNat_of_pos hpos] at hlow
    omega
  · have hchar : c.toNat = 0x212A := by omega
    rw [hchar, hshift] at hk
    exact hk (by decide)

theorem toLower_of_not_ascii (hc : 128 ≤ c.toNat) : c.toLower = c := by
  unfold Char.toLower
  rw [dif_neg]
  rintro ⟨-, hhigh⟩
  have : c.toNat ≤ 90 := UInt32.le_iff_toNat_le.1 hhigh
  omega

/-- The lower case of a character starts with one that is plain only as a form of it, and has
nothing plain behind that. -/
theorem lowerChar_spec (c : Char) :
    ∃ d ds, lowerChar c = d :: ds ∧ (∀ e ∈ ds, 128 ≤ e.toNat) ∧
      ∀ m, Plain m → (d = m ↔ foldsTo m c = true) ∧ (d = m → ds = []) := by
  by_cases hascii : c.toNat < 128
  · refine ⟨c.toLower, [], by rw [lowerChar, if_pos hascii], nofun, fun m hm => ?_⟩
    rw [hm.foldsTo_iff]
    exact ⟨Iff.rfl, fun _ => rfl⟩
  · have stays : ∀ m, Plain m → foldsTo m c = false := by
      intro m hm
      rw [Bool.eq_false_iff, ne_eq, hm.foldsTo_iff, toLower_of_not_ascii (by omega)]
      rintro rfl
      exact hascii hm.2.1
    have other : ∀ d ds, ¬ Plain d →
        ∀ m, Plain m → (d = m ↔ foldsTo m c = true) ∧ (d = m → ds = ([] : List Char)) := by
      intro d ds hd m hm
      have hne : d ≠ m := fun h => hd (h ▸ hm)
      simp [hne, stays m hm]
    rw [lowerChar, if_neg hascii]
    split
    · exact ⟨'i', ['\u0307'], rfl, List.forall_mem_singleton.2 (by decide), other _ _ (by decide)⟩
    · split
      · rename_i run hfind
        have hcovers : run.covers c.toNat = true := by simpa using List.find?_some hfind
        have hnot := not_plain_of_run (List.mem_of_find?_eq_some hfind) hcovers
        exact ⟨_, [], rfl, nofun, other _ _ hnot⟩
      · exact ⟨c, [], rfl, nofun, other _ _ fun h => hascii h.2.1⟩

/-- The same with the text around it. -/
theorem lowerAfter_cons (before : List Char) (c : Char) (cs : List Char) :
    ∃ d ds, lowerAfter before (c :: cs) = d :: ds ++ lowerAfter (c :: before) cs ∧
      (∀ e ∈ ds, 128 ≤ e.toNat) ∧
      ∀ m, Plain m → (d = m ↔ foldsTo m c = true) ∧ (d = m → ds = []) := by
  by_cases hsigma : c = 'Σ'
  · subst hsigma
    have small : ∀ d ∈ ['σ', 'ς'], ∀ m, Plain m →
        (d = m ↔ foldsTo m 'Σ' = true) ∧ (d = m → ([] : List Char) = []) := by
      intro d hd m hm
      have hhigh : 128 ≤ d.toNat := by
        simp only [List.mem_cons, List.not_mem_nil, or_false] at hd
        rcases hd with rfl | rfl <;> decide
      have hne : d ≠ m := fun h => by
        have := hm.2.1
        rw [← h] at this
        omega
      have hsigma : ('Σ' : Char).toLower ≠ m := fun h => absurd hm (h ▸ by decide)
      rw [hm.foldsTo_iff]
      exact ⟨iff_of_false hne hsigma, fun _ => rfl⟩
    rw [lowerAfter, if_pos rfl]
    split
    · exact ⟨'ς', [], rfl, nofun, small _ (by simp)⟩
    · exact ⟨'σ', [], rfl, nofun, small _ (by simp)⟩
  · obtain ⟨d, ds, hlower, hds, hd⟩ := lowerChar_spec c
    exact ⟨d, ds, by rw [lowerAfter, if_neg hsigma, hlower], hds, hd⟩

/-- The lower case starts with a plain model where the text starts with a form of it. -/
theorem isPrefixOf_lowerAfter (hmodel : ∀ m ∈ model, Plain m) (before cs : List Char) :
    model.isPrefixOf (lowerAfter before cs) = (dropFolded? model cs).isSome := by
  induction model generalizing before cs with
  | nil => rfl
  | cons m model ih =>
    obtain ⟨hm, hmodel⟩ := List.forall_mem_cons.1 hmodel
    cases cs with
    | nil => rfl
    | cons c cs =>
      obtain ⟨d, ds, hlower, -, hd⟩ := lowerAfter_cons before c cs
      obtain ⟨hform, halone⟩ := hd m hm
      rw [hlower, dropFolded?]
      by_cases hdm : d = m
      · rw [if_pos (hform.1 hdm), halone hdm, hdm, ← ih hmodel (c :: before) cs]
        simp
      · rw [if_neg (mt hform.2 hdm), List.cons_append, List.isPrefixOf_cons_cons]
        simp [Ne.symm hdm]

/-- Counting a plain model in the lower case of a text is counting it in any case. -/
theorem countP_tails_lower (hne : model ≠ []) (hmodel : ∀ m ∈ model, Plain m) (cs : List Char) :
    (lower cs).tails.countP model.isPrefixOf = countFolded model cs := by
  obtain ⟨m, model, rfl⟩ := List.exists_cons_of_ne_nil hne
  have nothing : ∀ ds rest : List Char, (∀ e ∈ ds, 128 ≤ e.toNat) →
      (ds ++ rest).tails.countP (m :: model).isPrefixOf =
        rest.tails.countP (m :: model).isPrefixOf := by
    intro ds rest hds
    induction ds with
    | nil => rfl
    | cons d ds ih =>
      obtain ⟨hd, hds⟩ := List.forall_mem_cons.1 hds
      have hne : m ≠ d := by
        rintro rfl
        have := (hmodel m List.mem_cons_self).2.1
        omega
      rw [List.cons_append, List.tails_cons, List.countP_cons_of_neg (by simp [hne]), ih hds]
  unfold lower
  generalize ([] : List Char) = before
  induction cs generalizing before with
  | nil => rfl
  | cons c cs ih =>
    have start := isPrefixOf_lowerAfter hmodel before (c :: cs)
    obtain ⟨d, ds, hlower, hds, -⟩ := lowerAfter_cons before c cs
    rw [hlower] at start
    rw [hlower, List.cons_append, List.tails_cons, List.countP_cons, nothing ds _ hds, ih,
      countFolded_cons, ← start, Nat.add_comm]
    rfl

end Spriting.Text

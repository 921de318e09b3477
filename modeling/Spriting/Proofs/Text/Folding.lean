import Spriting.Proofs.Lists
import Spriting.Text.Blank
import Spriting.Text.Fold

/-!
# What a text holds in any case

A text holds a model if a stretch of it is the model but for the case of its letters.  Of a model
whose characters are ASCII every such character is one of a few.

* `dropFolded?_eq_some_iff`, `holdsFolded_iff`: what the searches find;
* `Folds.forall`, `Folds.models`: what a text in any case has in common with its model;
* `holdsFolded_separated`: nothing is found across a character that is not of the model.
-/

namespace Spriting.Text

variable {α : Type} {model front rest cs ds : List Char}

/-! ## The forms of a text -/

/-- `front` is the model, in any case. -/
def Folds (model front : List Char) : Prop :=
  List.Forall₂ (fun m c => foldsTo m c = true) model front

/-- The characters that may stand for a small ASCII letter. -/
def forms (m : Char) : List Char :=
  [m, Char.ofNat (m.toNat - 32), '\u0130', '\u0131', '\u017F', '\u212A']

theorem eq_of_toLower {m c : Char} (h : c.toLower = m) :
    c = m ∨ c = Char.ofNat (m.toNat - 32) := by
  unfold Char.toLower at h
  split at h
  · rename_i hupper
    right
    have hlow : 65 ≤ c.val.toNat := UInt32.le_iff_toNat_le.1 hupper.1
    have hhigh : c.val.toNat ≤ 90 := UInt32.le_iff_toNat_le.1 hupper.2
    have hm : m.toNat = c.toNat + 32 := by
      rw [← h]
      simp only [Char.toNat, UInt32.toNat_add, UInt32.toNat_sub]
      change (c.val.toNat + 32) % _ = _
      omega
    rw [hm, Nat.add_sub_cancel, Char.ofNat_toNat]
  · exact .inl h

theorem mem_forms {m c : Char} (h : foldsTo m c = true) : c ∈ forms m := by
  simp only [foldsTo, Bool.or_eq_true, Bool.and_eq_true, beq_iff_eq] at h
  rcases h with ((hlower | ⟨-, h | h⟩) | ⟨-, h⟩) | ⟨-, h⟩
  · rcases eq_of_toLower hlower with h | h <;> simp [forms, h]
  all_goals simp [forms, h]

/-- Whether `P` holds of whatever may stand for a character of the model. -/
def allForms (P : Char → Bool) (model : List Char) : Bool := model.all fun m => (forms m).all P

/-- What holds of all that may stand for the characters of a model holds of all of its forms. -/
theorem Folds.forall {P : Char → Bool} (h : Folds model front) (hP : allForms P model = true) :
    ∀ c ∈ front, P c = true := by
  induction h with
  | nil => simp
  | @cons m c model front hfold _ ih =>
    rw [allForms, List.all_cons, Bool.and_eq_true] at hP
    exact List.forall_mem_cons.2 ⟨List.all_eq_true.1 hP.1 c (mem_forms hfold), ih hP.2⟩

/-- No character stands for two ASCII characters. -/
theorem foldsTo_unique {m m' c : Char} (hm : m.toNat < 128) (hm' : m'.toNat < 128)
    (h : foldsTo m c = true) (h' : foldsTo m' c = true) : m = m' := by
  have folded : ∀ {k : Char}, k.toNat < 128 → foldsTo k c = true →
      c.toLower = k ∧ c.toLower.toNat < 128 ∨ 128 ≤ c.toLower.toNat ∧
        (k = 'i' ∧ (c = '\u0130' ∨ c = '\u0131') ∨ k = 's' ∧ c = '\u017F' ∨
          k = 'k' ∧ c = '\u212A') := by
    intro k hk hfold
    simp only [foldsTo, Bool.or_eq_true, Bool.and_eq_true, beq_iff_eq] at hfold
    rcases hfold with ((hlower | ⟨hk, h | h⟩) | ⟨hk, h⟩) | ⟨hk, h⟩
    · exact .inl ⟨hlower, hlower ▸ hk⟩
    all_goals exact .inr ⟨by rw [h]; decide, by simp [hk, h]⟩
  rcases folded hm h with ⟨hc, hlow⟩ | ⟨hhigh, hc⟩ <;>
    rcases folded hm' h' with ⟨hc', hlow'⟩ | ⟨hhigh', hc'⟩
  · exact hc.symm.trans hc'
  · omega
  · omega
  · rcases hc with ⟨rfl, rfl | rfl⟩ | ⟨rfl, rfl⟩ | ⟨rfl, rfl⟩ <;> simp_all

/-- If one text is the front of another, then so are their models. -/
theorem Folds.models {model' front' : List Char} (h : Folds model front) (h' : Folds model' front')
    (hmodel : model.all (·.toNat < 128) = true) (hmodel' : model'.all (·.toNat < 128) = true)
    (hpre : front <+: front') : model <+: model' := by
  induction h generalizing model' front' with
  | nil => exact List.nil_prefix
  | @cons m c model front hfold _ ih =>
    cases h' with
    | nil => simp at hpre
    | @cons m' c' model' front' hfold' hfolds' =>
      obtain ⟨rfl, hrest⟩ := List.cons_prefix_cons.1 hpre
      rw [List.all_cons, Bool.and_eq_true, decide_eq_true_eq] at hmodel hmodel'
      rw [List.cons_prefix_cons]
      exact ⟨foldsTo_unique hmodel.1 hmodel'.1 hfold hfold', ih hfolds' hmodel.2 hmodel'.2 hrest⟩

theorem dropFolded?_eq_some_iff :
    dropFolded? model cs = some rest ↔ ∃ front, Folds model front ∧ cs = front ++ rest := by
  induction model generalizing cs with
  | nil => simp [dropFolded?, Folds]
  | cons m model ih =>
    cases cs with
    | nil => simp [dropFolded?, Folds, List.forall₂_cons_left_iff]
    | cons c cs =>
      by_cases hfold : foldsTo m c = true
      · rw [dropFolded?, if_pos hfold, ih]
        constructor
        · rintro ⟨front, hfront, rfl⟩
          exact ⟨c :: front, .cons hfold hfront, rfl⟩
        · rintro ⟨front, hfront, hcs⟩
          cases hfront with
          | cons _ htail =>
            obtain ⟨rfl, rfl⟩ := List.cons.inj hcs
            exact ⟨_, htail, rfl⟩
      · rw [dropFolded?, if_neg hfold]
        constructor
        · intro h
          cases h
        · rintro ⟨front, hfront, hcs⟩
          cases hfront with
          | cons hhead _ =>
            obtain ⟨rfl, -⟩ := List.cons.inj hcs
            exact absurd hhead hfold

theorem Folds.drop (h : Folds model front) (rest : List Char) :
    dropFolded? model (front ++ rest) = some rest :=
  dropFolded?_eq_some_iff.2 ⟨front, h, rfl⟩

instance (model front : List Char) : Decidable (Folds model front) :=
  decidable_of_iff (dropFolded? model front = some [])
    (dropFolded?_eq_some_iff.trans (by simp))

/-! ## Searching -/

theorem firstWithin_eq_none_iff {f : List Char → Option α} :
    firstWithin f cs = none ↔ ∀ s, s <:+ cs → f s = none := by
  induction cs with
  | nil => simp [firstWithin]
  | cons c cs ih => simp [firstWithin, List.suffix_cons_iff, ih]

theorem firstWithin_isSome_iff {f : List Char → Option α} :
    (firstWithin f cs).isSome = true ↔ ∃ before s, cs = before ++ s ∧ (f s).isSome = true := by
  rw [Option.isSome_iff_ne_none, ne_eq, firstWithin_eq_none_iff]
  constructor
  · intro h
    push Not at h
    obtain ⟨s, ⟨before, rfl⟩, hs⟩ := h
    exact ⟨before, s, rfl, Option.isSome_iff_ne_none.2 hs⟩
  · rintro ⟨before, s, rfl, hs⟩ h
    rw [h s (List.suffix_append before s)] at hs
    cases hs

/-- A search goes on behind the places where nothing is found. -/
theorem firstWithin_append {f : List Char → Option α}
    (h : ∀ s, s <:+ cs → s ≠ [] → f (s ++ rest) = none) :
    firstWithin f (cs ++ rest) = firstWithin f rest := by
  induction cs with
  | nil => rfl
  | cons c cs ih =>
    rw [List.cons_append, firstWithin, ← List.cons_append,
      h _ (List.suffix_refl _) (List.cons_ne_nil c cs), Option.none_or]
    exact ih fun s hs hne => h s (hs.trans (List.suffix_cons c cs)) hne

theorem holdsFolded_iff :
    holdsFolded model cs = true ↔ ∃ front, Folds model front ∧ front <:+: cs := by
  rw [holdsFolded, Option.isSome_iff_ne_none, ne_eq, firstWithin_eq_none_iff]
  constructor
  · intro h
    push Not at h
    obtain ⟨s, ⟨before, hbefore⟩, hs⟩ := h
    obtain ⟨rest, hrest⟩ := Option.ne_none_iff_exists'.1 hs
    obtain ⟨front, hfront, rfl⟩ := dropFolded?_eq_some_iff.1 hrest
    exact ⟨front, hfront, before, rest, by rw [List.append_assoc, hbefore]⟩
  · rintro ⟨front, hfront, before, rest, rfl⟩ h
    have := h (front ++ rest) ⟨before, (List.append_assoc _ _ _).symm⟩
    rw [hfront.drop] at this
    cases this

theorem holdsFolded_of_infix (h : holdsFolded model cs = true) (hcs : cs <:+: ds) :
    holdsFolded model ds = true := by
  obtain ⟨front, hfront, hin⟩ := holdsFolded_iff.1 h
  exact holdsFolded_iff.2 ⟨front, hfront, hin.trans hcs⟩

theorem dropFolded?_of_suffix (h : holdsFolded model cs = false) (hs : rest <:+ cs) :
    dropFolded? model rest = none := by
  rw [holdsFolded, Option.isSome_eq_false_iff, Option.isNone_iff_eq_none,
    firstWithin_eq_none_iff] at h
  exact h rest hs

/-- Nothing is found across a character that is not of the model. -/
theorem holdsFolded_separated {c : Char} (hc : allForms (· != c) model = true) :
    holdsFolded model (cs ++ c :: ds) = true ↔
      holdsFolded model cs = true ∨ holdsFolded model ds = true := by
  constructor
  · intro h
    obtain ⟨front, hfront, hin⟩ := holdsFolded_iff.1 h
    have apart : c ∉ front := fun hmem => by simpa using hfront.forall hc c hmem
    exact (infix_around apart hin).imp (fun h => holdsFolded_iff.2 ⟨front, hfront, h⟩)
      fun h => holdsFolded_iff.2 ⟨front, hfront, h⟩
  · rintro (h | h)
    · exact holdsFolded_of_infix h (List.prefix_append cs _).isInfix
    · have hds : ds <:+ cs ++ c :: ds := (List.suffix_cons c ds).trans (List.suffix_append cs _)
      exact holdsFolded_of_infix h hds.isInfix

/-- A model without blanks is not found in the blanks in front of a text. -/
theorem holdsFolded_trimStart (hne : model ≠ []) (hmodel : allForms (!isBlank ·) model = true)
    (cs : List Char) :
    holdsFolded model (trimStart cs) = holdsFolded model cs := by
  induction cs with
  | nil => rfl
  | cons c cs ih =>
    by_cases hc : isBlank c = true
    · have hdrop : trimStart (c :: cs) = trimStart cs := List.dropWhile_cons_of_pos hc
      have hnone : holdsFolded model [] = false := by
        cases model with
        | nil => exact absurd rfl hne
        | cons m model => rfl
      have apart : allForms (· != c) model = true := by
        simp only [allForms, List.all_eq_true] at hmodel ⊢
        intro m hm d hd
        have hink := hmodel m hm d hd
        rw [bne_iff_ne]
        rintro rfl
        simp [hc] at hink
      have split : holdsFolded model ([] ++ c :: cs) = true ↔ _ := holdsFolded_separated apart
      rw [List.nil_append, hnone] at split
      rw [hdrop, ih, Bool.eq_iff_iff, split]
      simp
    · rw [trimStart_eq_self (by simpa using hc)]

theorem countFolded_cons (model cs : List Char) (c : Char) :
    countFolded model (c :: cs) =
      (if (dropFolded? model (c :: cs)).isSome then 1 else 0) + countFolded model cs := rfl

/-- A model starts at no place of a text that does not hold it. -/
theorem countFolded_eq_zero_iff : countFolded model cs = 0 ↔ holdsFolded model cs = false := by
  induction cs with
  | nil => cases h : dropFolded? model [] <;> simp [countFolded, holdsFolded, firstWithin, h]
  | cons c cs ih =>
    rw [countFolded_cons, Nat.add_eq_zero_iff, ih, holdsFolded, holdsFolded, firstWithin]
    cases h : dropFolded? model (c :: cs) <;> simp

end Spriting.Text

import Mathlib.Data.List.Forall2

/-!
# Facts about lists

What several parts of the theory need of lists and what the library does not have.
-/

namespace Spriting

/-- A running maximum is at least what it started from and what it passed. -/
theorem foldl_max_ge (ns : List Int) (m : Int) :
    m ≤ ns.foldl max m ∧ ∀ n ∈ ns, n ≤ ns.foldl max m := by
  induction ns generalizing m with
  | nil => exact ⟨Int.le_refl _, by simp⟩
  | cons k ns ih =>
    obtain ⟨hm, hn⟩ := ih (max m k)
    refine ⟨Int.le_trans (by omega) hm, ?_⟩
    intro n hmem
    rcases List.mem_cons.1 hmem with rfl | hmem
    · exact Int.le_trans (by omega) hm
    · exact hn n hmem

/-- A running maximum is what it started from, or something that it passed. -/
theorem foldl_max_mem (ns : List Int) (m : Int) : ns.foldl max m ∈ m :: ns := by
  induction ns generalizing m with
  | nil => exact List.mem_singleton_self m
  | cons k ns ih =>
    rcases List.mem_cons.1 (ih (max m k)) with he | hmem
    · rw [List.foldl_cons, he]
      rcases Int.le_total m k with hle | hle
      · simp [Int.max_eq_right hle]
      · simp [Int.max_eq_left hle]
    · exact List.mem_cons_of_mem m (List.mem_cons_of_mem k hmem)

theorem modify_append {α : Type} (as bs : List α) (b : α) (f : α → α) :
    (as ++ b :: bs).modify as.length f = as ++ f b :: bs := by
  induction as with
  | nil => exact List.modify_zero_cons f b bs
  | cons a as ih => exact congrArg (a :: ·) ih

theorem forM_ok {α ε : Type} {xs : List α} {f : α → Except ε Unit} (h : ∀ x ∈ xs, f x = .ok ()) :
    xs.forM f = .ok () := by
  induction xs with
  | nil => rfl
  | cons x xs ih =>
    change f x >>= (fun _ => xs.forM f) = _
    rw [h x List.mem_cons_self]
    exact ih fun y hy => h y (List.mem_cons_of_mem _ hy)

/-- What holds of the images of one list holds of the same images of another. -/
theorem forall_mem_iff_of_map_eq {α β γ : Type} {f : α → γ} {g : β → γ} {as : List α} {bs : List β}
    (h : as.map f = bs.map g) (P : γ → Prop) : (∀ a ∈ as, P (f a)) ↔ ∀ b ∈ bs, P (g b) := by
  rw [← List.forall_mem_map (P := P), h, List.forall_mem_map]

/-- Lists are the same if their images are and no two elements have the same image. -/
theorem eq_of_map_eq {α β : Type} {f : α → β} {as bs : List α}
    (hf : ∀ a ∈ as, ∀ b ∈ bs, f a = f b → a = b) (h : as.map f = bs.map f) : as = bs := by
  induction as generalizing bs with
  | nil => exact (List.map_eq_nil_iff.1 h.symm).symm
  | cons a as ih =>
    obtain ⟨b, bs', rfl, hab, hrest⟩ := List.map_eq_cons_iff.1 h.symm
    have hab' : a = b := hf a List.mem_cons_self b List.mem_cons_self hab.symm
    have hrest' : as = bs' := ih
      (fun c hc d hd => hf c (List.mem_cons_of_mem a hc) d (List.mem_cons_of_mem b hd)) hrest.symm
    rw [hab', hrest']

/-- Of two lists that agree element by element, every element of the second has one of the first
with it. -/
theorem exists_of_mem_forall₂ {α β : Type} {R : α → β → Prop} {as : List α} {bs : List β} {b : β}
    (h : List.Forall₂ R as bs) (hb : b ∈ bs) : ∃ a ∈ as, R a b := by
  induction h with
  | nil => cases hb
  | @cons a b' as bs hab _ ih =>
    rcases List.mem_cons.1 hb with rfl | hb
    · exact ⟨a, List.mem_cons_self, hab⟩
    · obtain ⟨a', ha', hR⟩ := ih hb
      exact ⟨a', List.mem_cons_of_mem a ha', hR⟩

/-- Lists of one length agree element by element if they agree place by place. -/
theorem forall₂_of_getElem? {α β : Type} {R : α → β → Prop} {as : List α} {bs : List β}
    (hlength : bs.length = as.length)
    (h : ∀ (k : Nat) a b, as[k]? = some a → bs[k]? = some b → R a b) : List.Forall₂ R as bs := by
  rw [List.forall₂_iff_get]
  refine ⟨hlength.symm, ?_⟩
  intro k hk hk'
  exact h k _ _ (List.getElem?_eq_getElem hk) (List.getElem?_eq_getElem hk')

/-- Of three lists, the first agrees with the last as it does by way of the second. -/
theorem forall₂_trans {α β γ : Type} {R : α → β → Prop} {S : β → γ → Prop} {T : α → γ → Prop}
    {as : List α} {bs : List β} {cs : List γ} (hT : ∀ a b c, R a b → S b c → T a c)
    (h : List.Forall₂ R as bs) (h' : List.Forall₂ S bs cs) : List.Forall₂ T as cs := by
  induction h generalizing cs with
  | nil =>
    cases h'
    exact .nil
  | cons hab _ ih =>
    cases h' with
    | cons hbc hrest => exact .cons (hT _ _ _ hab hbc) (ih hrest)

/-- What is found in two lists agrees as their elements do. -/
theorem filterMap_of_forall₂ {α β : Type} {f : α → Option β} {P : β → Bool} {as bs : List α}
    (h : List.Forall₂ (fun a b => f b = (f a).filter P) as bs) :
    bs.filterMap f = (as.filterMap f).filter P := by
  induction h with
  | nil => rfl
  | @cons a b as bs hab _ ih =>
    rw [List.filterMap_cons, List.filterMap_cons, hab, ih]
    cases f a with
    | none => rfl
    | some x =>
      by_cases hx : P x = true
      · simp [Option.filter, hx]
      · simp [Option.filter, hx]

/-! ## Around an element -/

section Around

variable {α : Type} {c : α} {as bs cs ds : List α}

/-- A front that does not hold `c` ends before the first `c`. -/
theorem front_of_notMem (hc : c ∉ cs) (h : cs ++ ds = as ++ c :: bs) :
    ∃ es, as = cs ++ es ∧ ds = es ++ c :: bs := by
  rcases List.append_eq_append_iff.1 h with ⟨es, has, hds⟩ | ⟨es, hcs, hbs⟩
  · exact ⟨es, has, hds⟩
  · cases es with
    | nil => exact ⟨[], by simp [hcs], by simpa using hbs.symm⟩
    | cons e es =>
      obtain ⟨rfl, -⟩ := List.cons.inj hbs
      exact absurd (hcs ▸ List.mem_append_right as List.mem_cons_self) hc

/-- A list is split at the first `c` in one way. -/
theorem split_unique (has : c ∉ as) (hcs : c ∉ cs) (h : as ++ c :: bs = cs ++ c :: ds) :
    as = cs ∧ bs = ds := by
  obtain ⟨es, rfl, hes⟩ := front_of_notMem hcs h.symm
  cases es with
  | nil =>
    obtain ⟨-, hds⟩ := List.cons.inj hes
    exact ⟨List.append_nil cs, hds.symm⟩
  | cons e es =>
    obtain ⟨rfl, -⟩ := List.cons.inj hes
    exact absurd (List.mem_append_right cs List.mem_cons_self) has

/-- A stretch that does not hold `c` lies before it or behind it. -/
theorem infix_around (hc : c ∉ cs) (h : cs <:+: as ++ c :: bs) : cs <:+: as ∨ cs <:+: bs := by
  obtain ⟨before, after, h⟩ := h
  rcases List.append_eq_append_iff.1 h with ⟨es, rfl, -⟩ | ⟨es, hes, hbs⟩
  · exact .inl ⟨before, es, rfl⟩
  · cases es with
    | nil => exact .inl ⟨before, [], by simpa using hes⟩
    | cons e es =>
      obtain ⟨rfl, rfl⟩ := List.cons.inj hbs
      rcases List.append_eq_append_iff.1 hes with ⟨fs, -, hfs⟩ | ⟨fs, -, hfs⟩
      · rw [hfs] at hc
        exact absurd (List.mem_append_right fs List.mem_cons_self) hc
      · cases fs with
        | nil =>
          rw [List.nil_append] at hfs
          exact absurd (hfs ▸ List.mem_cons_self) hc
        | cons f fs =>
          obtain ⟨-, rfl⟩ := List.cons.inj hfs
          exact .inr ⟨fs, after, rfl⟩

end Around

/-! ## Classes of elements -/

section Classes

variable {α κ : Type} [BEq κ] (f : α → κ)

/-- Induction that takes away with an element all others that `f` maps to the same. -/
theorem classes_induction {motive : List α → Prop} (nil : motive [])
    (cons : ∀ x xs, motive (xs.filter fun y => !f y == f x) → motive (x :: xs)) (xs : List α) :
    motive xs := by
  induction hn : xs.length using Nat.strongRecOn generalizing xs with
  | _ n ih =>
    cases xs with
    | nil => exact nil
    | cons x xs =>
      refine cons x xs (ih _ ?_ _ rfl)
      have := List.length_filter_le (fun y => !f y == f x) xs
      simp only [List.length_cons] at hn
      omega

theorem eraseDups_map_cons (x : α) (xs : List α) :
    ((x :: xs).map f).eraseDups = f x :: ((xs.filter fun y => !f y == f x).map f).eraseDups := by
  rw [List.map_cons, List.eraseDups_cons, List.filter_map]
  rfl

variable [LawfulBEq κ]

/-- The elements that are left when the class of `x` is taken away are in other classes. -/
theorem ne_of_mem_classes {x : α} {xs : List α} {k : κ}
    (h : k ∈ ((xs.filter fun y => !f y == f x).map f).eraseDups) : k ≠ f x := by
  obtain ⟨y, hy, rfl⟩ := List.mem_map.1 (List.mem_eraseDups.1 h)
  simpa using (List.mem_filter.1 hy).2

theorem nodup_classes (xs : List α) : (xs.map f).eraseDups.Nodup := by
  induction xs using classes_induction f with
  | nil => exact List.nodup_nil
  | cons x xs ih =>
    rw [eraseDups_map_cons]
    exact List.nodup_cons.2 ⟨fun h => ne_of_mem_classes f h rfl, ih⟩

/-- The classes of a list hold all of its elements, each as often as the list does. -/
theorem flatMap_classes_perm (xs : List α) :
    ((xs.map f).eraseDups.flatMap fun k => xs.filter (f · == k)).Perm xs := by
  induction xs using classes_induction f with
  | nil => exact .nil
  | cons x xs ih =>
    have others : ∀ k ∈ ((xs.filter fun y => !f y == f x).map f).eraseDups,
        (x :: xs).filter (f · == k) = (xs.filter fun y => !f y == f x).filter (f · == k) := by
      intro k hk
      have hne := ne_of_mem_classes f hk
      rw [List.filter_cons_of_neg (by simpa using Ne.symm hne), List.filter_filter]
      apply List.filter_congr
      intro y _
      by_cases hy : f y = k
      · simp [hy, hne]
      · simp [hy]
    rw [eraseDups_map_cons, List.flatMap_cons, List.flatMap_congr others,
      List.filter_cons_of_pos (by simp)]
    exact .cons x (.trans (.append_left _ ih) (List.filter_append_perm (f · == f x) xs))

/-- The classes of a list come in the order of their first elements. -/
theorem classes_ordered {R : α → α → Prop} {xs : List α} (h : xs.Pairwise R) :
    (xs.map f).eraseDups.Pairwise fun a b => ∃ x ∈ xs, f x = a ∧ ∀ y ∈ xs, f y = b → R x y := by
  induction xs using classes_induction f with
  | nil => exact .nil
  | cons x xs ih =>
    obtain ⟨hx, hxs⟩ := List.pairwise_cons.1 h
    rw [eraseDups_map_cons]
    refine List.pairwise_cons.2 ⟨?_, ?_⟩
    · intro b hb
      refine ⟨x, List.mem_cons_self, rfl, ?_⟩
      intro y hy hyb
      rcases List.mem_cons.1 hy with rfl | hy
      · exact absurd hyb.symm (ne_of_mem_classes f hb)
      · exact hx y hy
    · refine (ih (hxs.filter _)).imp_of_mem ?_
      rintro a b - hb ⟨z, hz, hza, hbefore⟩
      refine ⟨z, List.mem_cons_of_mem x (List.mem_of_mem_filter hz), hza, ?_⟩
      intro y hy hyb
      have hne : f y ≠ f x := hyb ▸ ne_of_mem_classes f hb
      rcases List.mem_cons.1 hy with rfl | hy
      · exact absurd rfl hne
      · exact hbefore y (List.mem_filter.2 ⟨hy, by simpa using hne⟩) hyb

/-- When the class of `k` is taken away, the others stay in their order. -/
theorem eraseDups_filter_ne (k : κ) (xs : List α) :
    ((xs.filter fun y => !f y == k).map f).eraseDups =
      (xs.map f).eraseDups.filter fun j => !j == k := by
  induction xs using classes_induction f with
  | nil => rfl
  | cons x xs ih =>
    rw [eraseDups_map_cons]
    by_cases hx : f x = k
    · subst hx
      have kept : ∀ j ∈ ((xs.filter fun y => !f y == f x).map f).eraseDups, (!j == f x) = true :=
        fun j hj => by simpa using ne_of_mem_classes f hj
      rw [List.filter_cons_of_neg (by simp), List.filter_cons_of_neg (by simp),
        List.filter_eq_self.2 kept]
    · rw [List.filter_cons_of_pos (by simpa using hx), List.filter_cons_of_pos (by simpa using hx),
        eraseDups_map_cons, ← ih, List.filter_filter, List.filter_filter]
      simp only [Bool.and_comm]

end Classes

theorem nodup_eraseDups {α : Type} [BEq α] [LawfulBEq α] (xs : List α) : xs.eraseDups.Nodup := by
  have := nodup_classes id xs
  rwa [List.map_id] at this

end Spriting

import Spriting.Layout.Tree
import Spriting.Proofs.Layout.Apart

/-!
# Packing trees keep their boxes apart

The boxes that items hold and the free boxes of a packing tree never overlap and
never leave the canvas.  An item is cut out of one free box, and a larger canvas
adds one free box on the far side of the old canvas, so both steps keep this.

* `insertAll_packs`: it holds however many items are put in;
* `insertAll_isOk`: items that come in the order of their longer sides all find
  a place, for the canvas is always as wide or as high as the next one.
-/

namespace Spriting.Layout.Tree

variable {t t' : Tree} {held : List Box} {w h : Int} {b : Box}

/-- The box that an item of this size holds in the corner of `b`. -/
def corner (w h : Int) (b : Box) : Box := ⟨b.x, b.y, w, h⟩

/-- The free box to the right of an item of this size in the corner of `b`. -/
def besides (w h : Int) (b : Box) : Box := ⟨b.x + w, b.y, b.width - w, h⟩

/-- The free box below an item of this size in the corner of `b`. -/
def beneath (h : Int) (b : Box) : Box := ⟨b.x, b.y + h, b.width, b.height - h⟩

/-- The tree `t` packs the boxes `held`: they and its free boxes lie in the canvas,
apart from each other. -/
structure Packs (t : Tree) (held : List Box) : Prop where
  origin : t.box.x = 0 ∧ t.box.y = 0
  sized : ∀ b ∈ held ++ t.leaves, b.Sized
  within : ∀ b ∈ held ++ t.leaves, b.Within t.box
  apart : (held ++ t.leaves).Pairwise Box.Apart

/-! ## Putting an item into a free box -/

theorem fits_iff : fits w h b = true ↔ w ≤ b.width ∧ h ≤ b.height := by
  simp [fits]

/-- Placing cuts one free box, which the item fits into, in three. -/
theorem place_leaves (hp : t.place w h = some (t', b)) :
    fits w h b = true ∧ t'.box = t.box ∧
    ∃ l r, t.leaves = l ++ b :: r ∧ t'.leaves = l ++ besides w h b :: beneath h b :: r := by
  induction t generalizing t' with
  | free b₀ =>
    simp only [place, Option.ite_none_right_eq_some, Option.some.injEq, Prod.mk.injEq] at hp
    obtain ⟨hf, rfl, rfl⟩ := hp
    exact ⟨hf, rfl, [], [], rfl, rfl⟩
  | filled b₀ => simp [place] at hp
  | split b₀ right below ihr ihb =>
    simp only [place] at hp
    cases hr : right.place w h with
    | some p =>
      simp only [hr, Option.some.injEq, Prod.mk.injEq] at hp
      obtain ⟨rfl, rfl⟩ := hp
      obtain ⟨hf, _, l, r, hl, hl'⟩ := ihr hr
      exact ⟨hf, rfl, l, r ++ below.leaves, by simp [leaves, hl], by simp [leaves, hl']⟩
    | none =>
      simp only [hr, Option.map_eq_some_iff, Prod.mk.injEq] at hp
      obtain ⟨p, hb, rfl, rfl⟩ := hp
      obtain ⟨hf, _, l, r, hl, hl'⟩ := ihb hb
      exact ⟨hf, rfl, right.leaves ++ l, r, by simp [leaves, hl], by simp [leaves, hl']⟩

/-- The three pieces of a box. -/
def pieces (w h : Int) (b : Box) : List Box := [corner w h b, besides w h b, beneath h b]

theorem pieces_apart : (pieces w h b).Pairwise Box.Apart := by
  simp only [pieces, List.pairwise_cons, Box.Apart, corner, besides, beneath]
  simp

theorem pieces_within (hw : 0 ≤ w) (hh : 0 ≤ h) (hf : fits w h b = true) :
    ∀ p ∈ pieces w h b, p.Within b := by
  obtain ⟨hw', hh'⟩ := fits_iff.1 hf
  simp only [pieces, List.mem_cons, List.not_mem_nil, or_false, corner, besides, beneath]
  rintro p (rfl | rfl | rfl) <;> constructor <;> dsimp only <;> omega

theorem pieces_sized (hb : b.Sized) (hw : 0 ≤ w) (hh : 0 ≤ h) (hf : fits w h b = true) :
    ∀ p ∈ pieces w h b, p.Sized := by
  obtain ⟨hw', hh'⟩ := fits_iff.1 hf
  obtain ⟨hbw, hbh⟩ := hb
  simp only [pieces, List.mem_cons, List.not_mem_nil, or_false, corner, besides, beneath]
  rintro p (rfl | rfl | rfl) <;> constructor <;> dsimp only <;> omega

/-- Placing puts the pieces of a free box in its place, and one of them is held. -/
theorem place_perm (held : List Box) (hp : t.place w h = some (t', b)) :
    ∃ rest, (held ++ t.leaves).Perm (b :: rest) ∧
      (held ++ [corner w h b] ++ t'.leaves).Perm (pieces w h b ++ rest) := by
  obtain ⟨-, -, l, r, hl, hl'⟩ := place_leaves hp
  refine ⟨held ++ l ++ r, ?_, ?_⟩
  · rw [hl, ← List.append_assoc]
    exact List.perm_middle
  · rw [hl']
    simp only [pieces, List.append_assoc, List.cons_append, List.nil_append]
    refine List.perm_middle.trans (.cons _ ?_)
    rw [← List.append_assoc, ← List.append_assoc]
    exact List.perm_middle.trans (.cons _ List.perm_middle)

theorem place_packs (ht : t.Packs held) (hw : 0 ≤ w) (hh : 0 ≤ h)
    (hp : t.place w h = some (t', b)) : t'.Packs (held ++ [corner w h b]) := by
  obtain ⟨hf, hbox, -⟩ := place_leaves hp
  obtain ⟨rest, old, new⟩ := place_perm held hp
  have mem : ∀ c ∈ held ++ [corner w h b] ++ t'.leaves,
      c ∈ pieces w h b ∨ c ∈ held ++ t.leaves := by
    intro c hc
    rcases List.mem_append.1 (new.mem_iff.1 hc) with hc | hc
    · exact .inl hc
    · exact .inr (old.mem_iff.2 (List.mem_cons_of_mem _ hc))
  have hbm : b ∈ held ++ t.leaves := old.mem_iff.2 List.mem_cons_self
  refine ⟨hbox ▸ ht.origin, ?_, ?_, ?_⟩
  · intro c hc
    rcases mem c hc with hc | hc
    · exact pieces_sized (ht.sized b hbm) hw hh hf c hc
    · exact ht.sized c hc
  · intro c hc
    rw [hbox]
    rcases mem c hc with hc | hc
    · exact (pieces_within hw hh hf c hc).trans (ht.within b hbm)
    · exact ht.within c hc
  · rw [Box.pairwise_apart_perm new]
    exact Box.pairwise_refine ((Box.pairwise_apart_perm old).1 ht.apart) pieces_apart
      (pieces_within hw hh hf)

/-! ## Growing the canvas -/

/-- A canvas with one more free box, which lies apart from the old canvas. -/
theorem packs_enlarge (strip : Box) (ht : t.Packs held) (ho : t'.box.x = 0 ∧ t'.box.y = 0)
    (hl : t'.leaves.Perm (strip :: t.leaves)) (hs : strip.Sized) (hw : strip.Within t'.box)
    (hold : t.box.Within t'.box) (ha : strip.Apart t.box) : t'.Packs held := by
  have perm : (held ++ t'.leaves).Perm (strip :: (held ++ t.leaves)) :=
    (hl.append_left held).trans List.perm_middle
  refine ⟨ho, ?_, ?_, ?_⟩
  · intro c hc
    rcases List.mem_cons.1 (perm.mem_iff.1 hc) with rfl | hc
    · exact hs
    · exact ht.sized c hc
  · intro c hc
    rcases List.mem_cons.1 (perm.mem_iff.1 hc) with rfl | hc
    · exact hw
    · exact (ht.within c hc).trans hold
  · rw [Box.pairwise_apart_perm perm]
    refine List.pairwise_cons.2 ⟨fun c hc => ?_, ht.apart⟩
    exact ha.of_within (Box.Within.refl strip) (ht.within c hc)

theorem widen_box : (t.widen w).box = ⟨0, 0, t.box.width + w, t.box.height⟩ := rfl

theorem heighten_box : (t.heighten h).box = ⟨0, 0, t.box.width, t.box.height + h⟩ := rfl

theorem widen_packs (ht : t.Packs held) (hb : t.box.Sized) (hw : 0 ≤ w) :
    (t.widen w).Packs held := by
  obtain ⟨hx, hy⟩ := ht.origin
  obtain ⟨hbw, hbh⟩ := hb
  refine packs_enlarge ⟨t.box.width, 0, w, t.box.height⟩ ht ⟨rfl, rfl⟩
    (List.Perm.refl _) ⟨hw, hbh⟩ ?_ ?_ ?_
  · constructor <;> simp only [widen_box] <;> omega
  · constructor <;> simp only [widen_box] <;> omega
  · simp only [Box.Apart]
    omega

theorem heighten_packs (ht : t.Packs held) (hb : t.box.Sized) (hh : 0 ≤ h) :
    (t.heighten h).Packs held := by
  obtain ⟨hx, hy⟩ := ht.origin
  obtain ⟨hbw, hbh⟩ := hb
  refine packs_enlarge ⟨0, t.box.height, t.box.width, h⟩ ht ⟨rfl, rfl⟩
    (List.perm_append_singleton _ _) ⟨hbw, hh⟩ ?_ ?_ ?_
  · constructor <;> simp only [heighten_box] <;> omega
  · constructor <;> simp only [heighten_box] <;> omega
  · simp only [Box.Apart]
    omega

/-- A canvas grows by a strip of the item's width to its right, if the item is not
higher than the canvas, or of its height below, if it is not wider. -/
theorem grown_cases (hg : t.grown w h = some t') :
    (h ≤ t.box.height ∧ t' = t.widen w) ∨ (w ≤ t.box.width ∧ t' = t.heighten h) := by
  simp only [grown] at hg
  split at hg
  · rename_i hc
    exact .inl ⟨hc.1, (Option.some.inj hg).symm⟩
  · split at hg
    · rename_i hc
      exact .inr ⟨hc.1, (Option.some.inj hg).symm⟩
    · split at hg
      · rename_i hc
        exact .inl ⟨hc, (Option.some.inj hg).symm⟩
      · split at hg
        · rename_i hc
          exact .inr ⟨hc, (Option.some.inj hg).symm⟩
        · simp at hg

theorem grown_eq_none_iff :
    t.grown w h = none ↔ t.box.width < w ∧ t.box.height < h := by
  simp only [grown]
  split
  · simp; omega
  · split
    · simp; omega
    · split
      · simp; omega
      · split
        · simp; omega
        · simp; omega

theorem place_isSome_of_mem {b : Box} (hm : b ∈ t.leaves) (hf : fits w h b = true) :
    (t.place w h).isSome = true := by
  induction t with
  | free b₀ =>
    obtain rfl : b = b₀ := by simpa [leaves] using hm
    simp [place, hf]
  | filled b₀ => simp [leaves] at hm
  | split b₀ right below ihr ihb =>
    simp only [place]
    cases hr : right.place w h with
    | some p => rfl
    | none =>
      rcases List.mem_append.1 hm with hm | hm
      · have := ihr hm
        simp [hr] at this
      · simpa using ihb hm

/-- The strip that a canvas grows by has room for the item. -/
theorem grow_isSome (hg : w ≤ t.box.width ∨ h ≤ t.box.height) : (t.grow w h).isSome = true := by
  cases hn : t.grown w h with
  | none =>
    have := grown_eq_none_iff.1 hn
    omega
  | some t' =>
    simp only [grow, hn, Option.bind_some]
    rcases grown_cases hn with ⟨hh, rfl⟩ | ⟨hw, rfl⟩
    · exact place_isSome_of_mem (b := ⟨t.box.width, 0, w, t.box.height⟩)
        (by simp [widen, leaves]) (by simp [fits, hh])
    · exact place_isSome_of_mem (b := ⟨0, t.box.height, t.box.width, h⟩)
        (by simp [heighten, leaves]) (by simp [fits, hw])

/-! ## Putting items in one after another -/

/-- What putting an item in may do to the canvas: it may grow, if there is no free box for it. -/
theorem insert_cases (hi : t.insert w h = some (t', b)) :
    ∃ t₀, (t₀ = t ∨ t.place w h = none ∧ t.grown w h = some t₀) ∧
      t₀.place w h = some (t', b) := by
  rw [insert, Option.or_eq_some_iff] at hi
  rcases hi with hp | ⟨hfull, hg⟩
  · exact ⟨t, .inl rfl, hp⟩
  · obtain ⟨t₀, hg, hp⟩ := Option.bind_eq_some_iff.1 hg
    exact ⟨t₀, .inr ⟨hfull, hg⟩, hp⟩

theorem grown_packs (ht : t.Packs held) (hb : t.box.Sized) (hw : 0 ≤ w) (hh : 0 ≤ h)
    (hg : t.grown w h = some t') :
    t'.Packs held ∧ t'.box.Sized ∧ t.box.width ≤ t'.box.width ∧ t.box.height ≤ t'.box.height := by
  obtain ⟨hbw, hbh⟩ := hb
  rcases grown_cases hg with ⟨-, rfl⟩ | ⟨-, rfl⟩
  · refine ⟨widen_packs ht ⟨hbw, hbh⟩ hw, ?_, ?_, ?_⟩ <;> simp only [widen_box]
    · exact ⟨by dsimp only; omega, hbh⟩
    · omega
    · omega
  · refine ⟨heighten_packs ht ⟨hbw, hbh⟩ hh, ?_, ?_, ?_⟩ <;> simp only [heighten_box]
    · exact ⟨hbw, by dsimp only; omega⟩
    · omega
    · omega

theorem insert_packs (ht : t.Packs held) (hb : t.box.Sized) (hw : 0 ≤ w) (hh : 0 ≤ h)
    (hi : t.insert w h = some (t', b)) :
    t'.Packs (held ++ [corner w h b]) ∧ t'.box.Sized ∧
    t.box.width ≤ t'.box.width ∧ t.box.height ≤ t'.box.height := by
  obtain ⟨t₀, hg, hp⟩ := insert_cases hi
  have hbox := (place_leaves hp).2.1
  rcases hg with rfl | ⟨-, hg⟩
  · exact ⟨place_packs ht hw hh hp, hbox ▸ hb, hbox ▸ Int.le_refl _, hbox ▸ Int.le_refl _⟩
  · obtain ⟨ht₀, hb₀, hgw, hgh⟩ := grown_packs ht hb hw hh hg
    exact ⟨place_packs ht₀ hw hh hp, hbox ▸ hb₀, hbox ▸ hgw, hbox ▸ hgh⟩

theorem insert_isSome (hg : w ≤ t.box.width ∨ h ≤ t.box.height) :
    (t.insert w h).isSome = true := by
  rw [insert, Option.isSome_or, grow_isSome hg, Bool.or_true]

/-- Items are put in one after another: the first one, and the others into the tree that it leaves. -/
theorem insertAll_cons_eq_ok {i : Item} {items : List Item} {origins : List (Int × Int)} :
    t.insertAll (i :: items) = .ok (origins, t') ↔
      ∃ t₁ b rest, t.insert i.width i.height = some (t₁, b) ∧
        t₁.insertAll items = .ok (rest, t') ∧ origins = (b.x, b.y) :: rest := by
  simp only [insertAll]
  cases hins : t.insert i.width i.height with
  | none => simp
  | some p =>
    obtain ⟨t₁, b⟩ := p
    cases hrest : t₁.insertAll items with
    | error e => simp [hrest, Except.map]
    | ok q =>
      simp only [hrest, Except.map, Except.ok.injEq, Prod.mk.injEq, Option.some.injEq]
      constructor
      · rintro ⟨rfl, rfl⟩
        exact ⟨t₁, b, q.1, ⟨rfl, rfl⟩, hrest, rfl⟩
      · rintro ⟨_, _, rest, ⟨rfl, rfl⟩, hq, rfl⟩
        rw [hrest, Except.ok.injEq] at hq
        exact ⟨by rw [hq], by rw [hq]⟩

/-- Every item gets an origin, whatever its size. -/
theorem insertAll_length {items : List Item} {origins : List (Int × Int)}
    (h : t.insertAll items = .ok (origins, t')) : origins.length = items.length := by
  induction items generalizing t origins with
  | nil =>
    cases h
    rfl
  | cons i items ih =>
    obtain ⟨t₁, b, rest, -, hrest, rfl⟩ := insertAll_cons_eq_ok.1 h
    simp [ih hrest]

theorem insertAll_packs {items : List Item} {origins : List (Int × Int)} (ht : t.Packs held)
    (hb : t.box.Sized) (hs : ∀ i ∈ items, i.Sized) (hi : t.insertAll items = .ok (origins, t')) :
    t'.Packs (held ++ (List.zipWith Item.put items origins).map Item.box) := by
  induction items generalizing t held origins with
  | nil =>
    simp only [insertAll, Except.ok.injEq, Prod.mk.injEq] at hi
    obtain ⟨rfl, rfl⟩ := hi
    simpa using ht
  | cons i items ih =>
    obtain ⟨t₁, b, rest, hins, hrest, rfl⟩ := insertAll_cons_eq_ok.1 hi
    obtain ⟨hw, hh⟩ := hs i List.mem_cons_self
    obtain ⟨ht₁, hb₁, -, -⟩ := insert_packs ht hb hw hh hins
    have hp := ih ht₁ hb₁ (fun j hj => hs j (List.mem_cons_of_mem _ hj)) hrest
    simpa [corner, Item.put, Item.box] using hp

/-- Items all find a place if none of them is both wider and higher than the canvas
at the start, for the canvas never shrinks. -/
theorem insertAll_isOk {items : List Item} (ht : t.Packs held) (hb : t.box.Sized)
    (hs : ∀ i ∈ items, i.Sized)
    (hroom : ∀ i ∈ items, i.width ≤ t.box.width ∨ i.height ≤ t.box.height) :
    ∃ origins t', t.insertAll items = .ok (origins, t') := by
  induction items generalizing t held with
  | nil => exact ⟨[], t, rfl⟩
  | cons i items ih =>
    obtain ⟨⟨t₁, b⟩, hins⟩ := Option.isSome_iff_exists.1
      (insert_isSome (hroom i List.mem_cons_self))
    obtain ⟨hw, hh⟩ := hs i List.mem_cons_self
    obtain ⟨ht₁, hb₁, hgw, hgh⟩ := insert_packs ht hb hw hh hins
    have hroom₁ : ∀ j ∈ items, j.width ≤ t₁.box.width ∨ j.height ≤ t₁.box.height := by
      intro j hj
      have := hroom j (List.mem_cons_of_mem _ hj)
      omega
    obtain ⟨origins, t', hrest⟩ := ih ht₁ hb₁ (fun j hj => hs j (List.mem_cons_of_mem _ hj)) hroom₁
    exact ⟨(b.x, b.y) :: origins, t', insertAll_cons_eq_ok.2 ⟨t₁, b, origins, hins, hrest, rfl⟩⟩

/-! ## The whole run -/

theorem seed_packs {i : Item} {items : List Item} (hi : i.Sized) :
    (seed (i :: items)).Packs [] := by
  refine ⟨⟨rfl, rfl⟩, ?_, ?_, ?_⟩
  · simpa [seed, leaves] using ⟨hi.width, hi.height⟩
  · simpa [seed, leaves, box] using Box.Within.refl _
  · simp [seed, leaves]

/-- The first item in this order has the longest side of all. -/
theorem longest_of_largerFirst {i j : Item} (h : largerFirst i j = true) :
    max j.width j.height ≤ max i.width i.height := by
  simp only [largerFirst] at h
  split at h
  · simp only [decide_eq_true_eq] at h
    omega
  · omega

/-- In the order of their sizes, no item is both wider and higher than the first. -/
theorem sorted_room {i : Item} {items : List Item}
    (ho : (i :: items).Pairwise fun i j => largerFirst i j = true) :
    ∀ j ∈ i :: items, j.width ≤ i.width ∨ j.height ≤ i.height := by
  intro j hj
  rcases List.mem_cons.1 hj with rfl | hj
  · exact .inl (Int.le_refl _)
  · have := longest_of_largerFirst ((List.pairwise_cons.1 ho).1 j hj)
    omega

/-- Items that are put in stand apart in the canvas. -/
theorem seed_insertAll_packs {items : List Item} {origins : List (Int × Int)}
    (hs : ∀ i ∈ items, i.Sized) (hi : (seed items).insertAll items = .ok (origins, t')) :
    t'.Packs ((List.zipWith Item.put items origins).map Item.box) := by
  cases items with
  | nil =>
    cases hi
    refine ⟨⟨rfl, rfl⟩, ?_, ?_, ?_⟩
    · simpa [seed, leaves] using ⟨by decide, by decide⟩
    · simpa [seed, leaves, box] using Box.Within.refl _
    · simp [seed, leaves]
  | cons i items =>
    have hfirst := hs i List.mem_cons_self
    have hb : (seed (i :: items)).box.Sized := ⟨hfirst.width, hfirst.height⟩
    simpa using insertAll_packs (seed_packs hfirst) hb hs hi

/-- In the order of their sizes, all items are put in. -/
theorem seed_insertAll_isOk {items : List Item} (hs : ∀ i ∈ items, i.Sized)
    (ho : items.Pairwise fun i j => largerFirst i j = true) :
    ∃ origins t', (seed items).insertAll items = .ok (origins, t') := by
  cases items with
  | nil => exact ⟨[], seed [], rfl⟩
  | cons i items =>
    have hi := hs i List.mem_cons_self
    have hb : (seed (i :: items)).box.Sized := ⟨hi.width, hi.height⟩
    exact insertAll_isOk (seed_packs hi) hb hs (sorted_room ho)

end Spriting.Layout.Tree

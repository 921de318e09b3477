import Mathlib.Algebra.BigOperators.Group.List.Basic
import Mathlib.Tactic.Ring
import Spriting.Proofs.Layout.Columns
import Spriting.Proofs.Layout.Room

/-!
# Packing trees tile the canvas

Nothing of the canvas is lost and nothing is given away twice: the boxes that items hold and
the free boxes together are the canvas, whatever items come and in whatever order.  An item
takes its box out of a free one and leaves the rest of it free, and a larger canvas is the old
one and a free strip, so both steps put boxes in the place of one that they cover.

* `Covers.refine`: a box may be replaced by boxes that cover it;
* `Filling.offer_tiles`: so an item that is offered keeps the tiling;
* `Filling.offerAll_tiles`: and so does any sequence of items.
-/

namespace Spriting.Layout

namespace Box

/-- The cell in column `x` and row `y` lies in the box. -/
def Holds (b : Box) (x y : Int) : Prop := x ∈ b.columns ∧ y ∈ b.rows

def area (b : Box) : Int := b.width * b.height

/-- The boxes have the cells of `outer` and no others, and its area. -/
structure Covers (bs : List Box) (outer : Box) : Prop where
  cells : ∀ x y, outer.Holds x y ↔ ∃ b ∈ bs, b.Holds x y
  area : (bs.map Box.area).sum = outer.area

variable {a b outer : Box} {bs cs pieces rest : List Box}

theorem holds_iff {x y : Int} :
    b.Holds x y ↔ (b.x ≤ x ∧ x < b.x + b.width) ∧ b.y ≤ y ∧ y < b.y + b.height := Iff.rfl

theorem Covers.self (b : Box) : Covers [b] b := ⟨by simp, by simp⟩

theorem Covers.pair (cells : ∀ x y, outer.Holds x y ↔ a.Holds x y ∨ b.Holds x y)
    (area : a.area + b.area = outer.area) : Covers [a, b] outer :=
  ⟨by simpa using cells, by simpa using area⟩

theorem Covers.perm (h : Covers bs outer) (hp : bs.Perm cs) : Covers cs outer := by
  refine ⟨?_, ?_⟩
  · intro x y
    simp only [h.cells, hp.mem_iff]
  · rw [← h.area]
    exact (hp.map Box.area).sum_eq.symm

/-- A box may be replaced by boxes that cover it. -/
theorem Covers.refine (h : Covers (b :: rest) outer) (hb : Covers pieces b) :
    Covers (pieces ++ rest) outer := by
  refine ⟨?_, ?_⟩
  · intro x y
    simp only [h.cells, List.mem_cons, List.mem_append, or_and_right, exists_or, exists_eq_left,
      hb.cells]
  · rw [← h.area, List.map_append, List.sum_append, hb.area, List.map_cons, List.sum_cons]

/-- A vertical line cuts a box in two. -/
theorem covers_columns {w : Int} (h0 : 0 ≤ w) (hw : w ≤ b.width) :
    Covers [⟨b.x, b.y, w, b.height⟩, ⟨b.x + w, b.y, b.width - w, b.height⟩] b := by
  refine .pair ?_ ?_
  · intro x y
    simp only [holds_iff]
    omega
  · simp only [area]
    ring

/-- A horizontal line cuts a box in two. -/
theorem covers_rows {h : Int} (h0 : 0 ≤ h) (hh : h ≤ b.height) :
    Covers [⟨b.x, b.y, b.width, h⟩, ⟨b.x, b.y + h, b.width, b.height - h⟩] b := by
  refine .pair ?_ ?_
  · intro x y
    simp only [holds_iff]
    omega
  · simp only [area]
    ring

end Box

namespace Tree

variable {t t' : Tree} {held : List Box} {w h : Int} {b : Box}

/-- The boxes `held` and the free boxes of the tree have sizes that are not negative, are apart
from each other, and cover the canvas. -/
structure Tiles (t : Tree) (held : List Box) : Prop extends t.Packs held where
  canvas : t.box.Sized
  covers : Box.Covers (held ++ t.leaves) t.box

/-! ## What a step cuts and what it adds -/

theorem pieces_cover (hw : 0 ≤ w) (hh : 0 ≤ h) (hf : fits w h b = true) :
    Box.Covers (pieces w h b) b := by
  obtain ⟨hw', hh'⟩ := fits_iff.1 hf
  exact (Box.covers_rows hh hh').refine (Box.covers_columns (b := ⟨b.x, b.y, b.width, h⟩) hw hw')

theorem box_eq (ho : t.box.x = 0 ∧ t.box.y = 0) : t.box = ⟨0, 0, t.box.width, t.box.height⟩ := by
  obtain ⟨hx, hy⟩ := ho
  cases hbox : t.box
  simp_all

/-- A wider canvas is the old one and the strip to its right. -/
theorem widen_covers (ho : t.box.x = 0 ∧ t.box.y = 0) (hb : t.box.Sized) (hw : 0 ≤ w) :
    Box.Covers [t.box, ⟨t.box.width, 0, w, t.box.height⟩] (t.widen w).box := by
  have cut := Box.covers_columns (b := (t.widen w).box) hb.width (by simp only [widen_box]; omega)
  simp only [widen_box, Int.zero_add, add_sub_cancel_left, ← box_eq ho] at cut ⊢
  exact cut

/-- A higher canvas is the old one and the strip below it. -/
theorem heighten_covers (ho : t.box.x = 0 ∧ t.box.y = 0) (hb : t.box.Sized) (hh : 0 ≤ h) :
    Box.Covers [t.box, ⟨0, t.box.height, t.box.width, h⟩] (t.heighten h).box := by
  have cut := Box.covers_rows (b := (t.heighten h).box) hb.height
    (by simp only [heighten_box]; omega)
  simp only [heighten_box, Int.zero_add, add_sub_cancel_left, ← box_eq ho] at cut ⊢
  exact cut

theorem place_tiles (ht : t.Tiles held) (hw : 0 ≤ w) (hh : 0 ≤ h)
    (hp : t.place w h = some (t', b)) : t'.Tiles (held ++ [corner w h b]) := by
  obtain ⟨hf, hbox, -⟩ := place_leaves hp
  obtain ⟨rest, old, new⟩ := place_perm held hp
  refine ⟨place_packs ht.toPacks hw hh hp, hbox ▸ ht.canvas, ?_⟩
  rw [hbox]
  exact ((ht.covers.perm old).refine (pieces_cover hw hh hf)).perm new.symm

theorem grown_tiles (ht : t.Tiles held) (hw : 0 ≤ w) (hh : 0 ≤ h)
    (hg : t.grown w h = some t') : t'.Tiles held := by
  obtain ⟨packs, sized, -⟩ := grown_packs ht.toPacks ht.canvas hw hh hg
  refine ⟨packs, sized, ?_⟩
  rcases grown_cases hg with ⟨-, rfl⟩ | ⟨-, rfl⟩
  · refine ((widen_covers ht.origin ht.canvas hw).refine ht.covers).perm ?_
    rw [List.append_assoc]
    exact (List.perm_append_singleton _ _).append_left held
  · refine ((heighten_covers ht.origin ht.canvas hh).refine ht.covers).perm ?_
    rw [List.append_assoc]
    exact List.Perm.refl _

theorem free_tiles {width height : Int} (hw : 0 ≤ width) (hh : 0 ≤ height) :
    (free ⟨0, 0, width, height⟩).Tiles [] where
  origin := ⟨rfl, rfl⟩
  sized := List.forall_mem_singleton.2 ⟨hw, hh⟩
  within := List.forall_mem_singleton.2 (Box.Within.refl _)
  apart := List.pairwise_singleton _ _
  canvas := ⟨hw, hh⟩
  covers := Box.Covers.self _

/-- An item that is put in, into the canvas as it is or grown, keeps the tiling. -/
theorem insert_tiles (ht : t.Tiles held) (hw : 0 ≤ w) (hh : 0 ≤ h)
    (hi : t.insert w h = some (t', b)) : t'.Tiles (held ++ [corner w h b]) := by
  obtain ⟨t₀, hg, hp⟩ := insert_cases hi
  refine place_tiles ?_ hw hh hp
  rcases hg with rfl | ⟨-, hg⟩
  · exact ht
  · exact grown_tiles ht hw hh hg

/-- A canvas never grows in vain. -/
theorem place_isSome_of_grown (hg : t.grown w h = some t') : (t'.place w h).isSome = true := by
  have room : w ≤ t.box.width ∨ h ≤ t.box.height := by
    rcases grown_cases hg with ⟨hh, -⟩ | ⟨hw, -⟩
    · exact .inr hh
    · exact .inl hw
  have := grow_isSome room
  rwa [grow, hg] at this

/-! ## When a step is refused -/

theorem find?_eq_none_iff :
    t.find? w h = none ↔ ∀ b ∈ t.leaves, ¬ (w ≤ b.width ∧ h ≤ b.height) := by
  constructor
  · intro hf b hb hfits
    have := place_isSome_of_mem hb (fits_iff.2 hfits)
    rw [place_eq_none_iff.2 hf] at this
    cases this
  · intro hnone
    cases hf : t.find? w h with
    | none => rfl
    | some b =>
      obtain ⟨hb, hfits⟩ := find?_spec hf
      exact absurd (fits_iff.1 hfits) (hnone b hb)

theorem grow_eq_none_iff : t.grow w h = none ↔ t.box.width < w ∧ t.box.height < h := by
  constructor
  · intro hg
    have := mt (grow_isSome (t := t) (w := w) (h := h)) (by simp [hg])
    omega
  · intro hout
    rw [grow, grown_eq_none_iff.2 hout]
    rfl

/-- There is no free box that sticks out of the canvas. -/
theorem place_eq_none_of_grow (ht : t.Packs held) (hg : t.grow w h = none) :
    t.place w h = none := by
  obtain ⟨hout, -⟩ := grow_eq_none_iff.1 hg
  refine place_eq_none_iff.2 (find?_eq_none_iff.2 fun b hb hfits => ?_)
  obtain ⟨left, -, right, -⟩ := ht.within b (List.mem_append_right held hb)
  obtain ⟨hx, -⟩ := ht.origin
  omega

end Tree

/-! ## Items that come in any order -/

/-- A packing tree and the boxes that items hold in it. -/
structure Filling where
  tree : Tree
  held : List Box

namespace Filling

variable {s : Filling} {w h : Int} {sizes : List (Int × Int)}

/-- A free canvas of this size. -/
def empty (width height : Int) : Filling := ⟨.free ⟨0, 0, width, height⟩, []⟩

/-- Offers an item of this size.  The canvas grows before a box is looked for in it, and would
have grown in vain if there were none. -/
def offer (w h : Int) (s : Filling) : Filling :=
  match s.tree.place w h with
  | some (t, b) => ⟨t, s.held ++ [Tree.corner w h b]⟩
  | none =>
    match s.tree.grown w h with
    | none => s
    | some larger =>
      match larger.place w h with
      | some (t, b) => ⟨t, s.held ++ [Tree.corner w h b]⟩
      | none => ⟨larger, s.held⟩

/-- Offers items of these sizes one after another. -/
def offerAll (sizes : List (Int × Int)) (s : Filling) : Filling :=
  sizes.foldl (fun s size => s.offer size.1 size.2) s

/-- An item that is offered is put in, or else nothing changes. -/
theorem offer_cases (w h : Int) (s : Filling) :
    (∃ t b, s.tree.insert w h = some (t, b) ∧
      s.offer w h = ⟨t, s.held ++ [Tree.corner w h b]⟩) ∨
    s.tree.insert w h = none ∧ s.offer w h = s := by
  unfold offer Tree.insert Tree.grow
  cases hp : s.tree.place w h with
  | some p => exact .inl ⟨p.1, p.2, rfl, rfl⟩
  | none =>
    cases hg : s.tree.grown w h with
    | none => exact .inr ⟨rfl, rfl⟩
    | some larger =>
      obtain ⟨p, hp⟩ := Option.isSome_iff_exists.1 (Tree.place_isSome_of_grown hg)
      exact .inl ⟨p.1, p.2, hp, by simp only [hp]⟩

/-- An item that is offered keeps the tiling. -/
theorem offer_tiles (ht : s.tree.Tiles s.held) (hw : 0 ≤ w) (hh : 0 ≤ h) :
    (s.offer w h).tree.Tiles (s.offer w h).held := by
  rcases offer_cases w h s with ⟨t, b, hi, hs⟩ | ⟨-, hs⟩
  · rw [hs]
    exact Tree.insert_tiles ht hw hh hi
  · rwa [hs]

/-- However many items are offered, they keep the tiling. -/
theorem offerAll_tiles (ht : s.tree.Tiles s.held) (hs : ∀ size ∈ sizes, 0 ≤ size.1 ∧ 0 ≤ size.2) :
    (s.offerAll sizes).tree.Tiles (s.offerAll sizes).held := by
  induction sizes generalizing s with
  | nil => exact ht
  | cons size sizes ih =>
    obtain ⟨⟨hw, hh⟩, hrest⟩ := List.forall_mem_cons.1 hs
    exact ih (offer_tiles ht hw hh) hrest

/-- An item for which the canvas does not grow changes nothing. -/
theorem offer_eq_self (ht : s.tree.Tiles s.held) (hg : s.tree.grow w h = none) :
    s.offer w h = s := by
  have hnone : s.tree.insert w h = none := by
    rw [Tree.insert, Tree.place_eq_none_of_grow ht.toPacks hg, hg]
    rfl
  rcases offer_cases w h s with ⟨t, b, hi, -⟩ | ⟨-, hs⟩
  · rw [hnone] at hi
    cases hi
  · exact hs

end Filling

/-- **A packing tree tiles its canvas.** Start with a free canvas and offer it any items of sizes
that are not negative, in any order.  At every time the boxes that items hold and the free boxes
are boxes of sizes that are not negative, of which no two overlap, and together they are exactly
the canvas.  A free box is found for an item unless none is as wide and as high as it, and the
canvas grows for an item unless it sticks out on both sides; then nothing changes. -/
theorem offered_tiles {width height : Int} {sizes : List (Int × Int)} {s : Filling}
    (hwidth : 0 ≤ width) (hheight : 0 ≤ height)
    (hsizes : ∀ size ∈ sizes, 0 ≤ size.1 ∧ 0 ≤ size.2)
    (hs : s = (Filling.empty width height).offerAll sizes) :
    s.tree.Tiles s.held ∧ ∀ w h : Int,
      (s.tree.find? w h = none ↔ ∀ b ∈ s.tree.leaves, ¬ (w ≤ b.width ∧ h ≤ b.height)) ∧
      (s.tree.grow w h = none ↔ s.tree.box.width < w ∧ s.tree.box.height < h) ∧
      (s.tree.grow w h = none → s.offer w h = s) := by
  have tiles : s.tree.Tiles s.held :=
    hs ▸ Filling.offerAll_tiles (Tree.free_tiles hwidth hheight) hsizes
  exact ⟨tiles, fun w h => ⟨Tree.find?_eq_none_iff, Tree.grow_eq_none_iff,
    Filling.offer_eq_self tiles⟩⟩

/-- An item without width grows the canvas down, one is refused, and one finds a free box. -/
theorem offered_tiles_unsorted :
    let sizes : List (Int × Int) := [(2, 1), (0, 3), (9, 9), (1, 2)]
    let s := (Filling.empty 2 1).offerAll sizes
    (0 : Int) ≤ 2 ∧ (0 : Int) ≤ 1 ∧ (∀ size ∈ sizes, 0 ≤ size.1 ∧ 0 ≤ size.2) ∧
    s.held = [⟨0, 0, 2, 1⟩, ⟨0, 1, 0, 3⟩, ⟨0, 1, 1, 2⟩] ∧ s.tree.Tiles s.held ∧
    s.offer 9 9 = s := by
  intro sizes s
  have hsizes : ∀ size ∈ sizes, 0 ≤ size.1 ∧ 0 ≤ size.2 := by decide
  have hs : s = (Filling.empty 2 1).offerAll sizes := rfl
  obtain ⟨tiles, steps⟩ :=
    offered_tiles (by decide : (0 : Int) ≤ 2) (by decide : (0 : Int) ≤ 1) hsizes hs
  obtain ⟨-, -, refused⟩ := steps 9 9
  exact ⟨by decide, by decide, hsizes, by decide, tiles, refused (by decide)⟩

end Spriting.Layout

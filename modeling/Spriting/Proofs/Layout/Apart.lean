import Spriting.Layout.Box

/-!
# Boxes that do not overlap

Two boxes are apart if a horizontal or a vertical line keeps them on different
sides.  A box of no width or height may lie on the border of another, but not
inside it.

* `Apart.of_within`: boxes inside boxes that are apart are apart;
* `pairwise_refine`: so a box may be replaced by pieces of it.
-/

namespace Spriting.Layout

namespace Box

/-- `a` lies entirely to the left of `b`, to the right of it, above or below it. -/
def Apart (a b : Box) : Prop :=
  a.x + a.width ≤ b.x ∨ b.x + b.width ≤ a.x ∨ a.y + a.height ≤ b.y ∨ b.y + b.height ≤ a.y

/-- `inner` sticks out of `outer` on no side. -/
structure Within (inner outer : Box) : Prop where
  left : outer.x ≤ inner.x
  top : outer.y ≤ inner.y
  right : inner.x + inner.width ≤ outer.x + outer.width
  bottom : inner.y + inner.height ≤ outer.y + outer.height

/-- Neither side is negative. -/
structure Sized (b : Box) : Prop where
  width : 0 ≤ b.width
  height : 0 ≤ b.height

theorem Within.refl (b : Box) : b.Within b := ⟨by omega, by omega, by omega, by omega⟩

theorem Within.trans {a b c : Box} (hab : a.Within b) (hbc : b.Within c) : a.Within c := by
  obtain ⟨hl, ht, hr, hb⟩ := hab
  obtain ⟨hl', ht', hr', hb'⟩ := hbc
  exact ⟨by omega, by omega, by omega, by omega⟩

theorem Apart.symm {a b : Box} (h : a.Apart b) : b.Apart a := by
  unfold Apart at h ⊢
  omega

/-- Boxes inside boxes that are apart are apart. -/
theorem Apart.of_within {a b a' b' : Box} (h : a.Apart b) (ha : a'.Within a) (hb : b'.Within b) :
    a'.Apart b' := by
  obtain ⟨hl, ht, hr, hd⟩ := ha
  obtain ⟨hl', ht', hr', hd'⟩ := hb
  unfold Apart at h ⊢
  omega

theorem pairwise_apart_perm {bs cs : List Box} (h : bs.Perm cs) :
    bs.Pairwise Apart ↔ cs.Pairwise Apart := h.pairwise_iff Apart.symm

/-- A box may be replaced by pieces of it that are apart among themselves. -/
theorem pairwise_refine {b : Box} {pieces rest : List Box} (h : (b :: rest).Pairwise Apart)
    (hp : pieces.Pairwise Apart) (hw : ∀ p ∈ pieces, p.Within b) :
    (pieces ++ rest).Pairwise Apart := by
  obtain ⟨hb, hr⟩ := List.pairwise_cons.1 h
  refine List.pairwise_append.2 ⟨hp, hr, ?_⟩
  intro p hpm c hc
  exact (hb c hc).of_within (hw p hpm) (Within.refl c)

end Box

namespace Item

/-- Neither side is negative. -/
structure Sized (i : Item) : Prop where
  width : 0 ≤ i.width
  height : 0 ≤ i.height

instance (i : Item) : Decidable i.Sized :=
  decidable_of_iff (0 ≤ i.width ∧ 0 ≤ i.height) ⟨fun h => ⟨h.1, h.2⟩, fun h => ⟨h.1, h.2⟩⟩

/-- The item with its top left corner at `origin`. -/
def put (i : Item) (origin : Int × Int) : Item := { i with x := origin.1, y := origin.2 }

/-- The item without its place. -/
def unplaced (i : Item) : Item := i.put (0, 0)

@[simp] theorem unplaced_put (i : Item) (origin : Int × Int) :
    (i.put origin).unplaced = i.unplaced := rfl

end Item

/-- The items of a list are apart in their places. -/
def ItemsApart (items : List Item) : Prop := items.Pairwise fun i j => i.box.Apart j.box

theorem itemsApart_iff {items : List Item} :
    ItemsApart items ↔ (items.map Item.box).Pairwise Box.Apart := by
  rw [ItemsApart, List.pairwise_map]

theorem itemsApart_perm {items items' : List Item} (h : items.Perm items') :
    ItemsApart items ↔ ItemsApart items' := by
  rw [itemsApart_iff, itemsApart_iff, Box.pairwise_apart_perm (h.map _)]

end Spriting.Layout

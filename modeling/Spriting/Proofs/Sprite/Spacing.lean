import Mathlib.Order.Bounds.Defs
import Spriting.Proofs.Sprite.Reordering

/-!
# Padding lies between images and not around them

An item is larger than its image by the padding, to the right of the image and below it.  So
where items are apart, their images are apart by the padding.  The items that reach to the
edges of the canvas do so with their padding, and that is what is cut off.

* `placementOf_spaced`: images of items that are apart have the padding between them;
* `exists_right`, `exists_bottom`: images reach to the edges of their sheet;
* `packNamed_spaced`: so it is in every sheet that a layout makes.
-/

namespace Spriting.Sprite

open Files Image Layout

/-- In one direction, at least `gap` lies between `a` and `b`. -/
def Spaced (gap : Int) (a b : Box) : Prop :=
  a.x + a.width + gap ≤ b.x ∨ b.x + b.width + gap ≤ a.x ∨
    a.y + a.height + gap ≤ b.y ∨ b.y + b.height + gap ≤ a.y

/-- The boxes of a sheet have `gap` between them, and the sheet ends where they end. -/
structure SpriteSheet.Tight (sheet : SpriteSheet) (gap : Int) : Prop where
  spaced : sheet.placements.Pairwise fun p q => Spaced gap p.2 q.2
  within : ∀ p ∈ sheet.placements, p.2.Within sheet.canvas
  width : IsGreatest {n | ∃ p ∈ sheet.placements, p.2.x + p.2.width = n} sheet.image.width
  height : IsGreatest {n | ∃ p ∈ sheet.placements, p.2.y + p.2.height = n} sheet.image.height

variable {padding : Int} {images : List (String × Raster)} {items : List Item}

/-! ## Between images -/

/-- Images of items that are apart have the padding between them. -/
theorem placementOf_spaced {p q : (String × Raster) × Item} (h : ItemsOf padding images items)
    (hp : p ∈ images.zip items) (hq : q ∈ images.zip items) (ha : p.2.box.Apart q.2.box) :
    Spaced padding (placementOf p).2 (placementOf q).2 := by
  obtain ⟨hpw, hph⟩ := h.size hp
  obtain ⟨hqw, hqh⟩ := h.size hq
  simp only [Box.Apart, Item.box] at ha
  simp only [Spaced, placementOf, layerOf, Layer.box]
  omega

theorem plan_spaced (h : ItemsOf padding images items) (ha : ItemsApart items) :
    (planOf padding images items).sheet.placements.Pairwise fun p q => Spaced padding p.2 q.2 := by
  rw [plan_placements, List.pairwise_map]
  exact (h.zip_apart ha).imp_of_mem fun hp hq hpq => placementOf_spaced h hp hq hpq

/-! ## Around images -/

theorem ItemsOf.exists_image {i : Item} (h : ItemsOf padding images items) (hi : i ∈ items) :
    ∃ p ∈ images.zip items, p.2 = i := by
  rw [← h.zip_items] at hi
  exact List.mem_map.1 hi

/-- An image reaches to the right edge of the sheet. -/
theorem exists_right (h : ItemsOf padding images items) (hne : items ≠ [])
    (hw : ∀ i ∈ items, i.box.Within (canvas items)) :
    ∃ p ∈ images.zip items, p.2.x + p.1.2.width = ((sheetSize padding items).1 : Int) := by
  obtain ⟨i, hi, hright⟩ := exists_greatest (f := fun i : Item => i.x + i.width) hne
  obtain ⟨p, hp, rfl⟩ := h.exists_image hi
  refine ⟨p, hp, ?_⟩
  have hsize := (h.size hp).1
  have hleft := (hw p.2 hi).left
  simp only [canvas, Item.box] at hleft
  simp only [sheetSize, extent]
  omega

/-- An image reaches to the lower edge of the sheet. -/
theorem exists_bottom (h : ItemsOf padding images items) (hne : items ≠ [])
    (hw : ∀ i ∈ items, i.box.Within (canvas items)) :
    ∃ p ∈ images.zip items, p.2.y + p.1.2.height = ((sheetSize padding items).2 : Int) := by
  obtain ⟨i, hi, hbottom⟩ := exists_greatest (f := fun i : Item => i.y + i.height) hne
  obtain ⟨p, hp, rfl⟩ := h.exists_image hi
  refine ⟨p, hp, ?_⟩
  have hsize := (h.size hp).2
  have htop := (hw p.2 hi).top
  simp only [canvas, Item.box] at htop
  simp only [sheetSize, extent]
  omega

theorem plan_tight (h : ItemsOf padding images items) (hne : items ≠ [])
    (ha : ItemsApart items) (hw : ∀ i ∈ items, i.box.Within (canvas items)) :
    (planOf padding images items).sheet.Tight padding := by
  have within : ∀ q ∈ (planOf padding images items).sheet.placements,
      q.2.Within (planOf padding images items).sheet.canvas := by
    intro q hq
    obtain ⟨p, hp, rfl⟩ := List.mem_map.1 hq
    exact plan_canvas ▸ layerOf_within_sheet h hw hp
  refine ⟨plan_spaced h ha, within, ⟨?_, ?_⟩, ⟨?_, ?_⟩⟩
  · obtain ⟨p, hp, hright⟩ := exists_right h hne hw
    exact ⟨placementOf p, List.mem_map_of_mem hp, hright⟩
  · rintro _ ⟨q, hq, rfl⟩
    simpa [SpriteSheet.canvas] using (within q hq).right
  · obtain ⟨p, hp, hbottom⟩ := exists_bottom h hne hw
    exact ⟨placementOf p, List.mem_map_of_mem hp, hbottom⟩
  · rintro _ ⟨q, hq, rfl⟩
    simpa [SpriteSheet.canvas] using (within q hq).bottom

/-! ## Sheets -/

/-- **Padding lies between images and not around them.** Images that can be loaded come by every
layout to a sheet with one box for each path, and no other sheet is answered.  Any two of its
boxes are at least the padding apart in one direction, all lie in the sheet, and the sheet is as
wide and as high as they reach. -/
theorem packNamed_spaced (library : Library) (load : Loader) (algorithm : Algorithm) {padding : Int}
    {paths : List String} (hpad : 0 ≤ padding) (hne : paths ≠ [])
    (hload : ∀ path ∈ paths, ∃ image, load path = .ok image) :
    ∃ plan, plan.sheet.placements.map Prod.fst = paths.eraseDups ∧ plan.sheet.Tight padding ∧
      ComesTo library (packNamed load padding algorithm.name paths library) plan := by
  obtain ⟨images, items, himages, h, ha, hw, hpack⟩ :=
    pack_plans library algorithm hpad hne hload
  have hpaths := (loadAll_paths himages).1
  have some_item : items ≠ [] := by
    rintro rfl
    obtain ⟨path, hp⟩ := List.exists_mem_of_ne_nil paths hne
    rw [← List.mem_eraseDups, ← hpaths, List.eq_nil_of_length_eq_zero h.length_eq.symm] at hp
    cases hp
  rw [packNamed_name]
  exact ⟨planOf padding images items, (plan_paths h).trans hpaths, plan_tight h some_item ha hw,
    hpack⟩

/-- A row of two dots with two columns between them. -/
theorem packNamed_spaced_row :
    let paths := ["/a.png", "/b.png", "/a.png"]
    (0 : Int) ≤ 2 ∧ paths ≠ [] ∧ (∀ path ∈ paths, ∃ image, dots path = .ok image) ∧
    ∃ file, packNamed dots 2 "left-right" paths = .ok file ∧
      file.placements.map Prod.fst = ["/a.png", "/b.png"] ∧ file.Tight 2 := by
  intro paths
  have hload : ∀ path ∈ paths, ∃ image, dots path = .ok image := fun _ _ => ⟨_, rfl⟩
  obtain ⟨file, hfile⟩ : ∃ file, packNamed dots 2 "left-right" paths = .ok file :=
    ⟨_, packNamed_dots 2 (by decide) rfl⟩
  obtain ⟨plan, hpaths, tight, comes⟩ :=
    packNamed_spaced .oneWay dots .leftRight (by decide : (0 : Int) ≤ 2) (by decide) hload
  have hsheet := comes.sheet_eq hfile
  exact ⟨by decide, by decide, hload, file, hfile, hsheet ▸ hpaths, hsheet ▸ tight⟩

end Spriting.Sprite

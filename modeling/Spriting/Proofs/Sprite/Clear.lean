import Spriting.Proofs.Layout.Columns
import Spriting.Proofs.Sprite.Reordering

/-!
# Repeating images have their lines for themselves

An image that repeats along a row shows all that stands in its rows, so images that repeat
horizontally are packed in a column, and images that repeat vertically in a row.  An image lies
in its item, so what the layout keeps clear for the items is clear for the images too, whatever
the padding.

* `pack_clear`: a layout that gives no line to two items gives none to two images;
* `repeating_axis_clear`: so it is in the sheets of repeating images.
-/

namespace Spriting.Sprite

open Background Files Image Layout

variable {load : Loader} {padding : Int} {paths : List String} {algorithm : Algorithm}
  {lines : Box → Set Int}

/-- No line of the sheet belongs to two of its images. -/
def SpriteSheet.Clear (sheet : SpriteSheet) (lines : Box → Set Int) : Prop :=
  sheet.placements.Pairwise fun p q => Disjoint (lines p.2) (lines q.2)

theorem plan_clear {images : List (String × Raster)} {items : List Item}
    (hlines : ∀ a b : Box, a.Within b → lines a ⊆ lines b) (hpad : 0 ≤ padding)
    (h : ItemsOf padding images items)
    (hclear : items.Pairwise fun i j => Disjoint (lines i.box) (lines j.box)) :
    (planOf padding images items).sheet.Clear lines := by
  rw [← h.zip_items, List.pairwise_map] at hclear
  rw [SpriteSheet.Clear, plan_placements, List.pairwise_map]
  refine hclear.imp_of_mem ?_
  intro p q hp hq hpq
  exact hpq.mono (hlines _ _ (layerOf_within hpad h hp)) (hlines _ _ (layerOf_within hpad h hq))

/-- Images that can be loaded come to a sheet of which no line belongs to two of them, if the
layout gives no line to two items. -/
theorem pack_clear (library : Library) (hlines : ∀ a b : Box, a.Within b → lines a ⊆ lines b)
    (hlayout : ∀ items : List Item, (∀ i ∈ items, i.Sized) → ∃ placed,
      arrange algorithm items = .ok placed ∧
      placed.Pairwise fun i j => Disjoint (lines i.box) (lines j.box))
    (hpad : 0 ≤ padding) (hne : paths ≠ [])
    (hload : ∀ path ∈ paths, ∃ image, load path = .ok image) :
    ∃ plan, plan.sheet.placements.map Prod.fst = paths.eraseDups ∧ plan.sheet.Clear lines ∧
      ComesTo library (pack load padding algorithm paths library) plan := by
  obtain ⟨images, himages⟩ : ∃ images, loadAll load paths.eraseDups = .ok images :=
    loadAll_isOk fun path hp => hload path (List.mem_eraseDups.1 hp)
  have sized := itemsOf_sized hpad images
  obtain ⟨items, harr, hans⟩ := arrange_answers algorithm sized
  obtain ⟨items', harr', hclear⟩ := hlayout _ sized
  cases harr.symm.trans harr'
  have h := itemsOf_of_arrange harr
  exact ⟨planOf padding images items, (plan_paths h).trans (loadAll_paths himages).1,
    plan_clear hlines hpad h hclear, pack_of_answers hne himages harr hans.within⟩

/-- **A repeating axis is kept clear.** Items of sizes that are not negative are laid out
top-down in one column, in the order of their heights and without gaps, so that no row belongs
to two of them.  The layout left-right is its mirror image: it gives every item the transposed
place that the other gives it when all sides are exchanged.  So images that can be loaded come,
whatever the padding, to a sheet of which no row belongs to two of them if they repeat
horizontally, and no column if they repeat vertically, and no other sheet is answered. -/
theorem repeating_axis_clear :
    (∀ items : List Item, (∀ i ∈ items, i.Sized) →
      ∃ placed, arrangeNamed "top-down" items = .ok placed ∧ Columned items placed) ∧
    (∀ items : List Item, arrangeNamed "left-right" items =
      (arrangeNamed "top-down" (items.map Item.transpose)).map (List.map Item.transpose)) ∧
    ∀ (library : Library) (load : Loader) (padding : Int) (paths : List String), 0 ≤ padding →
      paths ≠ [] → (∀ path ∈ paths, ∃ image, load path = .ok image) →
      (∃ plan, plan.sheet.placements.map Prod.fst = paths.eraseDups ∧
        plan.sheet.Clear Box.rows ∧
        ComesTo library (pack load padding (algorithmFor .horizontal) paths library) plan) ∧
      ∃ plan, plan.sheet.placements.map Prod.fst = paths.eraseDups ∧
        plan.sheet.Clear Box.columns ∧
        ComesTo library (pack load padding (algorithmFor .vertical) paths library) plan := by
  have column : arrangeNamed "top-down" = arrange .topDown := arrangeNamed_name .topDown
  have row : arrangeNamed "left-right" = arrange .leftRight := arrangeNamed_name .leftRight
  rw [column, row]
  refine ⟨fun items hs => arrange_column hs, arrange_transpose, ?_⟩
  intro library load padding paths hpad hne hload
  refine ⟨pack_clear library (fun _ _ h => h.rows_subset) ?_ hpad hne hload,
    pack_clear library (fun _ _ h => h.columns_subset) ?_ hpad hne hload⟩
  · intro items hs
    obtain ⟨placed, harr, hcol⟩ := arrange_column hs
    exact ⟨placed, harr, hcol.clear⟩
  · exact fun items hs => arrange_row_clear hs

/-- Two items of one height and one of none in a column, and two dots in a row. -/
theorem repeating_axis_clear_ties :
    let items : List Item := [⟨"a", 3, 1, 0, 0⟩, ⟨"b", 2, 1, 7, 7⟩, ⟨"c", 5, 0, 0, 0⟩]
    let paths := ["/a.png", "/b.png", "/a.png"]
    (∀ i ∈ items, i.Sized) ∧
    (∃ placed, arrangeNamed "top-down" items = .ok placed ∧ Columned items placed) ∧
    (0 : Int) ≤ 2 ∧ paths ≠ [] ∧ (∀ path ∈ paths, ∃ image, dots path = .ok image) ∧
    ∃ file, pack dots 2 (algorithmFor .vertical) paths = .ok file ∧
      file.placements.map Prod.fst = ["/a.png", "/b.png"] ∧ file.Clear Box.columns := by
  intro items paths
  obtain ⟨column, -, sheets⟩ := repeating_axis_clear
  have sized : ∀ i ∈ items, i.Sized := by decide
  have hload : ∀ path ∈ paths, ∃ image, dots path = .ok image := fun _ _ => ⟨_, rfl⟩
  obtain ⟨file, hfile⟩ : ∃ file, pack dots 2 (algorithmFor .vertical) paths = .ok file :=
    ⟨_, (packNamed_name dots 2 .leftRight paths .oneWay).symm.trans
      (packNamed_dots 2 (by decide) rfl)⟩
  obtain ⟨plan, hpaths, clear, comes⟩ :=
    (sheets .oneWay dots 2 paths (by decide) (by decide) hload).2
  have hsheet := comes.sheet_eq hfile
  exact ⟨sized, column items sized, by decide, by decide, hload, file, hfile, hsheet ▸ hpaths,
    hsheet ▸ clear⟩

end Spriting.Sprite

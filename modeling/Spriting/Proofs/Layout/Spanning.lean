import Mathlib
import Spriting.Proofs.Layout.Reordering

/-!
# Packing trees end where their items end

The canvas of a layout is spanned by its items.  The canvas of a packing tree starts with the
size of the first item and grows by strips.  They are the same, for a canvas grows only for an
item that has found no free box, by as much as the item is wide or high, and the item is put
into the strip at once: it ends where the larger canvas ends.

* `Tree.insert_strip`: where an item goes for which the canvas grows;
* `Tree.insertAll_spans`: so at every time the items reach to both ends of the canvas;
* `Tree.insertAll_box_le`: and the canvas has grown by no more than their sizes;
* `binaryTree_spans`: so the canvas of the answer is the canvas of the tree.
-/

namespace Spriting.Layout

namespace Tree

variable {t t' : Tree} {held : List Box} {w h : Int} {b : Box} {items : List Item}
  {origins : List (Int × Int)}

/-! ## Strips -/

/-- In a wider canvas, an item of the width of the strip goes to the top of the strip. -/
theorem place_widen (hh : h ≤ t.box.height) :
    ∃ t', (t.widen w).place w h = some (t', ⟨t.box.width, 0, w, t.box.height⟩) := by
  simp [widen, place, fits, hh]

/-- In a higher canvas, it goes to the left end of the strip, unless there was room before. -/
theorem place_heighten (hfull : t.place w h = none) (hw : w ≤ t.box.width) :
    ∃ t', (t.heighten h).place w h = some (t', ⟨0, t.box.height, t.box.width, h⟩) := by
  simp [heighten, place, hfull, fits, hw]

/-- An item is put into the canvas as it is, or into the strip by which the canvas has grown
for it: by its width to the right, or by its height below. -/
theorem insert_strip (hi : t.insert w h = some (t', b)) :
    t'.box = t.box ∨
    (t'.box = (t.widen w).box ∧ b = ⟨t.box.width, 0, w, t.box.height⟩) ∨
    (t'.box = (t.heighten h).box ∧ b = ⟨0, t.box.height, t.box.width, h⟩) := by
  obtain ⟨t₀, hg, hp⟩ := insert_cases hi
  have hbox := (place_leaves hp).2.1
  rcases hg with rfl | ⟨hfull, hg⟩
  · exact .inl hbox
  · -- a strip to the right is searched before the old canvas, and one below it behind it, where
    -- nothing has been found
    rcases grown_cases hg with ⟨hh, rfl⟩ | ⟨hw, rfl⟩
    · obtain ⟨t₁, hp₁⟩ := place_widen (w := w) hh
      cases hp.symm.trans hp₁
      exact .inr (.inl ⟨hbox, rfl⟩)
    · obtain ⟨t₁, hp₁⟩ := place_heighten hfull hw
      cases hp.symm.trans hp₁
      exact .inr (.inr ⟨hbox, rfl⟩)

/-! ## What is held reaches to the ends of the canvas -/

/-- One of the boxes ends where the canvas ends on the right, and one where it ends below. -/
structure Spans (t : Tree) (held : List Box) : Prop where
  right : ∃ b ∈ held, b.x + b.width = t.box.width
  bottom : ∃ b ∈ held, b.y + b.height = t.box.height

/-- An item that is put in keeps the canvas spanned: if the canvas grows for it, the item ends
where the canvas ends on that side, and on the other side the canvas ends where it did. -/
theorem insert_spans (ht : t.Spans held) (hi : t.insert w h = some (t', b)) :
    t'.Spans (held ++ [corner w h b]) := by
  have new : corner w h b ∈ held ++ [corner w h b] :=
    List.mem_append_right held (List.mem_singleton_self _)
  obtain ⟨⟨r, hr, right⟩, d, hd, bottom⟩ := ht
  have old_right : r ∈ held ++ [corner w h b] := List.mem_append_left _ hr
  have old_bottom : d ∈ held ++ [corner w h b] := List.mem_append_left _ hd
  rcases insert_strip hi with hbox | ⟨hbox, rfl⟩ | ⟨hbox, rfl⟩
  · exact ⟨⟨r, old_right, hbox ▸ right⟩, d, old_bottom, hbox ▸ bottom⟩
  · rw [widen_box] at hbox
    exact ⟨⟨_, new, by rw [hbox]; rfl⟩, d, old_bottom, by rw [hbox]; exact bottom⟩
  · rw [heighten_box] at hbox
    exact ⟨⟨r, old_right, by rw [hbox]; exact right⟩, _, new, by rw [hbox]; rfl⟩

/-- However many items are put in, they keep the canvas spanned. -/
theorem insertAll_spans (ht : t.Spans held) (hi : t.insertAll items = .ok (origins, t')) :
    t'.Spans (held ++ (List.zipWith Item.put items origins).map Item.box) := by
  induction items generalizing t held origins with
  | nil =>
    cases hi
    simpa using ht
  | cons i items ih =>
    obtain ⟨t₁, b, rest, hins, hrest, rfl⟩ := insertAll_cons_eq_ok.1 hi
    simpa [corner, Item.put, Item.box] using ih (insert_spans ht hins) hrest

/-! ## How much the canvas grows -/

theorem insert_box_le (hw : 0 ≤ w) (hh : 0 ≤ h) (hi : t.insert w h = some (t', b)) :
    t'.box.width ≤ t.box.width + w ∧ t'.box.height ≤ t.box.height + h := by
  rcases insert_strip hi with hbox | ⟨hbox, -⟩ | ⟨hbox, -⟩
  · rw [hbox]
    omega
  · rw [hbox, widen_box]
    dsimp only
    omega
  · rw [hbox, heighten_box]
    dsimp only
    omega

/-- A canvas grows by no more than the sizes of the items that are put in. -/
theorem insertAll_box_le (hs : ∀ i ∈ items, i.Sized)
    (hi : t.insertAll items = .ok (origins, t')) :
    t'.box.width ≤ t.box.width + (items.map Item.width).sum ∧
    t'.box.height ≤ t.box.height + (items.map Item.height).sum := by
  induction items generalizing t origins with
  | nil =>
    cases hi
    simp
  | cons i items ih =>
    obtain ⟨t₁, b, rest, hins, hrest, rfl⟩ := insertAll_cons_eq_ok.1 hi
    obtain ⟨⟨hw, hh⟩, hitems⟩ := List.forall_mem_cons.1 hs
    have first := insert_box_le hw hh hins
    have later := ih hitems hrest
    simp only [List.map_cons, List.sum_cons]
    omega

/-! ## The whole run -/

/-- The first item takes the whole of the canvas that starts with its size. -/
theorem seed_insert (i : Item) (items : List Item) :
    (seed (i :: items)).insert i.width i.height =
      some (cut i.width i.height ⟨0, 0, i.width, i.height⟩, ⟨0, 0, i.width, i.height⟩) := by
  simp [seed, insert, place, fits]

/-- The items of a tree span its canvas, and it is no larger than all of them side by side. -/
theorem seed_insertAll_spans (hne : items ≠ []) (hs : ∀ i ∈ items, i.Sized)
    (hi : (seed items).insertAll items = .ok (origins, t)) :
    t.Spans ((List.zipWith Item.put items origins).map Item.box) ∧
    t.box.width ≤ (items.map Item.width).sum ∧ t.box.height ≤ (items.map Item.height).sum := by
  obtain ⟨i, items, rfl⟩ := List.exists_cons_of_ne_nil hne
  obtain ⟨t₁, b, rest, hins, hrest, rfl⟩ := insertAll_cons_eq_ok.1 hi
  cases (seed_insert i items).symm.trans hins
  have first : (cut i.width i.height ⟨0, 0, i.width, i.height⟩).Spans
      [corner i.width i.height ⟨0, 0, i.width, i.height⟩] :=
    ⟨⟨_, List.mem_singleton_self _, Int.zero_add _⟩, _, List.mem_singleton_self _, Int.zero_add _⟩
  refine ⟨by simpa [corner, Item.put, Item.box] using insertAll_spans first hrest, ?_⟩
  have later := insertAll_box_le (fun j hj => hs j (List.mem_cons_of_mem i hj)) hrest
  simpa [cut, box] using later

end Tree

/-! ## The canvas of the answer -/

/-- What items span is the canvas of the tree that packs them, if they reach to its ends. -/
theorem extent_eq_box {t : Tree} {placed : List Item} (hp : t.Packs (placed.map Item.box))
    (hs : t.Spans (placed.map Item.box)) : extent placed = (t.box.width, t.box.height) := by
  obtain ⟨hx, hy⟩ := hp.origin
  obtain ⟨right, bottom⟩ := hs
  have within : ∀ i ∈ placed, i.box.Within t.box := fun i hi =>
    hp.within i.box (List.mem_append_left _ (List.mem_map_of_mem hi))
  refine Prod.ext (greatest_eq ?_ ?_) (greatest_eq ?_ ?_)
  · simpa [Item.box] using right
  · refine List.forall_mem_map.2 fun i hi => ?_
    have := (within i hi).right
    rwa [hx, Int.zero_add] at this
  · simpa [Item.box] using bottom
  · refine List.forall_mem_map.2 fun i hi => ?_
    have := (within i hi).bottom
    rwa [hy, Int.zero_add] at this

variable {items placed : List Item}

/-- Whatever the layout, its canvas is as wide and as high as each of the items. -/
theorem Answers.sides_le (h : Answers items placed) :
    ∀ i ∈ items, i.width ≤ (extent placed).1 ∧ i.height ≤ (extent placed).2 := by
  refine (forall_mem_iff_of_map_eq h.same fun i =>
    i.width ≤ (extent placed).1 ∧ i.height ≤ (extent placed).2).1 fun i hi => ?_
  obtain ⟨left, top, right, bottom⟩ := h.within i hi
  simp only [canvas, Item.box, Item.unplaced, Item.put] at left top right bottom ⊢
  omega

/-- **The canvas of the answer is the canvas of the tree.** Items of sizes that are not negative
are put into a packing tree in the order of their sizes, and the answer has them where the tree
has put them.  What they span is the canvas of the tree behind the last of them, as wide as the
widest item at least and all items side by side at most, and as high as the highest at least and
all items on top of each other at most. -/
theorem binaryTree_spans (hne : items ≠ []) (hs : ∀ i ∈ items, i.Sized) :
    ∃ placed origins t, arrangeNamed "binary-tree" items = .ok placed ∧
      (Tree.seed (Algorithm.binaryTree.order items)).insertAll
        (Algorithm.binaryTree.order items) = .ok (origins, t) ∧
      placed.Perm (List.zipWith Item.put (Algorithm.binaryTree.order items) origins) ∧
      extent placed = (t.box.width, t.box.height) ∧
      greatest (items.map Item.width) ≤ t.box.width ∧
      t.box.width ≤ (items.map Item.width).sum ∧
      greatest (items.map Item.height) ≤ t.box.height ∧
      t.box.height ≤ (items.map Item.height).sum := by
  have perm := Algorithm.binaryTree.order_perm items
  have hname : arrangeNamed "binary-tree" = arrange .binaryTree := arrangeNamed_name .binaryTree
  have sized : ∀ i ∈ Algorithm.binaryTree.order items, i.Sized := fun i hi =>
    hs i (perm.mem_iff.1 hi)
  have some_item : Algorithm.binaryTree.order items ≠ [] := fun h => hne (h ▸ perm).symm.eq_nil
  obtain ⟨placed, origins, harr, ho, hperm⟩ := arrange_places .binaryTree hs
  obtain ⟨placed', harr', answers⟩ := arrange_answers .binaryTree hs
  cases harr.symm.trans harr'
  obtain ⟨t, hrun⟩ := Algorithm.origins_binaryTree.1 ho
  obtain ⟨spans, hwidth, hheight⟩ := Tree.seed_insertAll_spans some_item sized hrun
  have packs := Tree.seed_insertAll_packs sized hrun
  have canvas : extent placed = (t.box.width, t.box.height) :=
    (extent_perm (hperm.map _)).trans (extent_eq_box packs spans)
  have sides := answers.sides_le
  rw [canvas] at sides
  rw [(perm.map Item.width).sum_eq] at hwidth
  rw [(perm.map Item.height).sum_eq] at hheight
  refine ⟨placed, origins, t, hname ▸ harr, hrun, hperm, canvas, ?_, hwidth, ?_, hheight⟩
  · obtain ⟨i, hi, widest⟩ := exists_greatest (f := Item.width) hne
    exact widest ▸ (sides i hi).1
  · obtain ⟨i, hi, highest⟩ := exists_greatest (f := Item.height) hne
    exact highest ▸ (sides i hi).2

/-- A square grows by a dot to the right, which is put into the strip. -/
theorem binaryTree_spans_dot :
    let items : List Item := [⟨"a", 1, 1, 0, 0⟩, ⟨"b", 2, 2, 0, 0⟩]
    items ≠ [] ∧ (∀ i ∈ items, i.Sized) ∧
    ∃ placed, arrangeNamed "binary-tree" items = .ok placed ∧ extent placed = (3, 2) ∧
      greatest (items.map Item.width) ≤ 3 ∧ 3 ≤ (items.map Item.width).sum ∧
      greatest (items.map Item.height) ≤ 2 ∧ 2 ≤ (items.map Item.height).sum := by
  intro items
  have hne : items ≠ [] := by decide
  have hs : ∀ i ∈ items, i.Sized := by decide
  have taken : Algorithm.binaryTree.order items = [⟨"b", 2, 2, 0, 0⟩, ⟨"a", 1, 1, 0, 0⟩] := by
    change List.mergeSort [⟨"a", 1, 1, 0, 0⟩, ⟨"b", 2, 2, 0, 0⟩] largerFirst = _
    simp [List.mergeSort, largerFirst]
  obtain ⟨placed, origins, t, harr, hrun, -, canvas, bounds⟩ := binaryTree_spans hne hs
  rw [taken] at hrun
  cases hrun
  exact ⟨hne, hs, placed, harr, canvas, bounds⟩

end Spriting.Layout

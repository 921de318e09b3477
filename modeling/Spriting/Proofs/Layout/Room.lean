import Spriting.Proofs.Layout.Arrangement

/-!
# Every item finds room

In the order of their sizes no item is both wider and higher than the first, and the canvas
starts with the size of the first and never shrinks.  So when the turn of an item has come,
it fits into a free box, or it sticks out of the canvas on one side at most and the canvas
grows on the other.

* `Tree.room_of_side`: a canvas that is as wide or as high as an item has room for it;
* `Tree.insertAll_grows`: the canvas never shrinks;
* `binaryTree_finds_room`: so no item is ever refused.
-/

namespace Spriting.Layout

namespace Tree

variable {t t' : Tree} {held : List Box} {w h : Int} {b : Box} {items : List Item}
  {origins : List (Int × Int)}

/-- There is room for an item of this size: a free box that it fits into, or else one in the
canvas when it has grown. -/
inductive Room (t : Tree) (w h : Int) : Prop where
  | found {b : Box} : t.find? w h = some b → b ∈ t.leaves → fits w h b = true → Room t w h
  | grown {t' : Tree} {b : Box} : t.find? w h = none → t.grow w h = some (t', b) → Room t w h

/-- What is found is a free box that the item fits into. -/
theorem find?_spec (hf : t.find? w h = some b) : b ∈ t.leaves ∧ fits w h b = true := by
  induction t with
  | free b₀ =>
    simp only [find?, Option.ite_none_right_eq_some, Option.some.injEq] at hf
    obtain ⟨hfits, rfl⟩ := hf
    exact ⟨List.mem_singleton_self b₀, hfits⟩
  | filled b₀ => cases hf
  | split b₀ right below ihr ihb =>
    rcases Option.or_eq_some_iff.1 hf with hr | ⟨-, hb⟩
    · obtain ⟨hmem, hfits⟩ := ihr hr
      exact ⟨List.mem_append_left _ hmem, hfits⟩
    · obtain ⟨hmem, hfits⟩ := ihb hb
      exact ⟨List.mem_append_right _ hmem, hfits⟩

/-- A canvas that is as wide or as high as an item has room for it. -/
theorem room_of_side (hside : w ≤ t.box.width ∨ h ≤ t.box.height) : t.Room w h := by
  cases hf : t.find? w h with
  | some b =>
    obtain ⟨hmem, hfits⟩ := find?_spec hf
    exact .found hf hmem hfits
  | none =>
    obtain ⟨⟨t', b⟩, hg⟩ := Option.isSome_iff_exists.1 (grow_isSome hside)
    exact .grown hf hg

/-- However many items are put in, the canvas never shrinks. -/
theorem insertAll_grows (ht : t.Packs held) (hb : t.box.Sized) (hs : ∀ i ∈ items, i.Sized)
    (hi : t.insertAll items = .ok (origins, t')) :
    t.box.width ≤ t'.box.width ∧ t.box.height ≤ t'.box.height := by
  induction items generalizing t held origins with
  | nil =>
    cases hi
    exact ⟨Int.le_refl _, Int.le_refl _⟩
  | cons i items ih =>
    obtain ⟨t₁, b, rest, hins, hrest, -⟩ := insertAll_cons_eq_ok.1 hi
    obtain ⟨hw, hh⟩ := hs i List.mem_cons_self
    obtain ⟨ht₁, hb₁, hgw, hgh⟩ := insert_packs ht hb hw hh hins
    obtain ⟨hgw', hgh'⟩ := ih ht₁ hb₁ (fun j hj => hs j (List.mem_cons_of_mem _ hj)) hrest
    exact ⟨Int.le_trans hgw hgw', Int.le_trans hgh hgh'⟩

/-- In the order of their sizes, the items before any item are put in, and the canvas that
they leave is as wide or as high as the item. -/
theorem seed_insertAll_side {before after : List Item} {i : Item} (hs : ∀ j ∈ items, j.Sized)
    (ho : items.Pairwise fun i j => largerFirst i j = true)
    (hsplit : items = before ++ i :: after) :
    ∃ origins t, (seed items).insertAll before = .ok (origins, t) ∧
      (i.width ≤ t.box.width ∨ i.height ≤ t.box.height) := by
  cases items with
  | nil => simp at hsplit
  | cons first rest =>
    have hfirst := hs first List.mem_cons_self
    have hb : (seed (first :: rest)).box.Sized := ⟨hfirst.width, hfirst.height⟩
    have hmem : ∀ j ∈ before, j ∈ first :: rest := fun j hj =>
      hsplit ▸ List.mem_append_left _ hj
    have hi : i ∈ first :: rest := hsplit ▸ List.mem_append_right _ List.mem_cons_self
    have sized : ∀ j ∈ before, j.Sized := fun j hj => hs j (hmem j hj)
    obtain ⟨origins, t, hok⟩ := insertAll_isOk (seed_packs hfirst) hb sized
      fun j hj => sorted_room ho j (hmem j hj)
    obtain ⟨hgw, hgh⟩ := insertAll_grows (seed_packs hfirst) hb sized hok
    refine ⟨origins, t, hok, ?_⟩
    rcases sorted_room ho i hi with hw | hh
    · exact .inl (Int.le_trans hw hgw)
    · exact .inr (Int.le_trans hh hgh)

end Tree

/-- **A packing tree never refuses an item.** Any items of sizes that are not negative all
find a place, for they are taken in the order of their sizes: when the turn of an item has
come, the canvas is as wide or as high as it, so that there is a free box which it fits into
or the canvas grows by one. -/
theorem binaryTree_finds_room (items : List Item) (hs : ∀ i ∈ items, i.Sized) :
    (∃ placed, arrangeNamed "binary-tree" items = .ok placed) ∧
    ∀ before i after, Algorithm.binaryTree.order items = before ++ i :: after →
      ∃ origins t,
        (Tree.seed (Algorithm.binaryTree.order items)).insertAll before = .ok (origins, t) ∧
        (i.width ≤ t.box.width ∨ i.height ≤ t.box.height) ∧ t.Room i.width i.height := by
  have perm := Algorithm.binaryTree.order_perm items
  have hname : arrangeNamed "binary-tree" = arrange .binaryTree := arrangeNamed_name .binaryTree
  refine ⟨?_, ?_⟩
  · obtain ⟨placed, harr, -⟩ := arrange_answers .binaryTree hs
    exact ⟨placed, hname ▸ harr⟩
  · intro before i after hsplit
    obtain ⟨origins, t, hok, hside⟩ := Tree.seed_insertAll_side
      (fun j hj => hs j (perm.mem_iff.1 hj)) (Algorithm.binaryTree.order_sorted items) hsplit
    exact ⟨origins, t, hok, hside, Tree.room_of_side hside⟩

/-- The smaller of two squares is taken second, although it comes first. -/
theorem binaryTree_finds_room_squares :
    let items : List Item := [⟨"a", 1, 1, 0, 0⟩, ⟨"b", 2, 2, 0, 0⟩]
    (∀ i ∈ items, i.Sized) ∧ (∃ placed, arrangeNamed "binary-tree" items = .ok placed) ∧
    ∃ origins t, (Tree.seed [⟨"b", 2, 2, 0, 0⟩]).insertAll [⟨"b", 2, 2, 0, 0⟩] = .ok (origins, t) ∧
      t.Room 1 1 := by
  intro items
  have hs : ∀ i ∈ items, i.Sized := by decide
  have taken : Algorithm.binaryTree.order items = [⟨"b", 2, 2, 0, 0⟩] ++ [⟨"a", 1, 1, 0, 0⟩] := by
    change List.mergeSort [⟨"a", 1, 1, 0, 0⟩, ⟨"b", 2, 2, 0, 0⟩] largerFirst = _
    simp [List.mergeSort, largerFirst]
  obtain ⟨hok, hroom⟩ := binaryTree_finds_room items hs
  obtain ⟨origins, t, hrun, -, room⟩ := hroom _ _ _ taken
  rw [taken] at hrun
  exact ⟨hs, hok, origins, t, hrun, room⟩

/-- In another order an item can be refused. -/
example : (Tree.seed [⟨"a", 1, 1, 0, 0⟩]).insertAll [⟨"a", 1, 1, 0, 0⟩, ⟨"b", 2, 2, 0, 0⟩] =
    .error (.unplaceable ⟨"b", 2, 2, 0, 0⟩) := by rfl

end Spriting.Layout

import Spriting.Proofs.Layout.Arrangement

/-!
# Layouts do not depend on the order of the question

The order in which a layout takes its items may leave open which of two comes first.  In a
stack that changes where the two stand, but not what the stack spans.  In a packing tree it
changes nothing but which of two items of one size stands where.

* `extent_column`: a column is as wide as its widest item and as high as all of them together;
* `eq_of_largerFirst`: only items of one size can be exchanged in a packing tree;
* `arrange_reordered`: so items in another order span the same canvas.
-/

namespace Spriting.Layout

variable {items items' : List Item}

/-! ## What boxes span in any order -/

theorem greatest_perm {ns ns' : List Int} (h : ns.Perm ns') : greatest ns = greatest ns' := by
  by_cases hne : ns = []
  · subst hne
    rw [h.nil_eq]
  · refine (greatest_eq (h.mem_iff.1 (greatest_mem hne)) fun n hn => ?_).symm
    exact le_greatest (h.mem_iff.2 hn)

/-- What items span is decided by their boxes, in whatever order. -/
theorem extent_perm (h : (items.map Item.box).Perm (items'.map Item.box)) :
    extent items = extent items' := by
  have right := greatest_perm (h.map fun b => b.x + b.width)
  have bottom := greatest_perm (h.map fun b => b.y + b.height)
  rw [List.map_map, List.map_map] at right bottom
  exact Prod.ext right bottom

/-! ## Stacks -/

/-- Where a column of these items that starts at `y` ends. -/
def columnEnd (y : Int) (items : List Item) : Int := items.foldl (fun y i => y + i.height) y

/-- The width of the widest item. -/
def widest (items : List Item) : Int := greatest (items.map Item.width)

theorem columnEnd_perm (y : Int) (h : items.Perm items') : columnEnd y items = columnEnd y items' :=
  h.foldl_eq' (fun i _ j _ z => by omega) y

theorem widest_perm (h : items.Perm items') : widest items = widest items' :=
  greatest_perm (h.map _)

/-- In a column every item ends below the one before it, the last one at the end of all. -/
theorem foldl_max_column (hs : ∀ i ∈ items, i.Sized) (y : Int) :
    ((List.zipWith Item.put items (column y items)).map fun i => i.y + i.height).foldl max y =
      columnEnd y items := by
  induction items generalizing y with
  | nil => rfl
  | cons i items ih =>
    have hh : max y (y + i.height) = y + i.height := by
      have := (hs i List.mem_cons_self).height
      omega
    simp only [column, List.zipWith_cons_cons, List.map_cons, List.foldl_cons, Item.put, hh,
      columnEnd]
    exact ih (fun j hj => hs j (List.mem_cons_of_mem i hj)) (y + i.height)

theorem rights_column (y : Int) :
    (List.zipWith Item.put items (column y items)).map (fun i => i.x + i.width) =
      items.map Item.width := by
  induction items generalizing y with
  | nil => rfl
  | cons i items ih => simp [column, Item.put, ih]

/-- A column is as wide as its widest item and as high as all items together. -/
theorem extent_column (hs : ∀ i ∈ items, i.Sized) :
    extent (List.zipWith Item.put items (column 0 items)) = (widest items, columnEnd 0 items) := by
  refine Prod.ext (congrArg greatest (rights_column 0)) ?_
  cases items with
  | nil => rfl
  | cons i items =>
    simp only [extent, column, List.zipWith_cons_cons, List.map_cons, greatest, Item.put]
    exact foldl_max_column (fun j hj => hs j (List.mem_cons_of_mem i hj)) (0 + i.height)

theorem extent_transpose : extent (items.map Item.transpose) = (extent items).swap := by
  simp only [extent, List.map_map]
  rfl

theorem extent_row (hs : ∀ i ∈ items, i.Sized) :
    extent (List.zipWith Item.put items (row 0 items)) =
      (columnEnd 0 (items.map Item.transpose), widest (items.map Item.transpose)) := by
  rw [row_eq_column, extent_transpose, extent_column (sized_transpose hs)]
  rfl

/-! ## Packing trees -/

/-- The item as a packing tree sees it: its size alone. -/
def Item.blank (i : Item) : Item := { i.unplaced with key := "" }

/-- Items that no order puts one before the other are of one size. -/
theorem eq_of_largerFirst {i j : Item} (hij : largerFirst i j = true)
    (hji : largerFirst j i = true) : i.blank = j.blank := by
  have hw : i.width = j.width ∧ i.height = j.height := by
    simp only [largerFirst] at hij hji
    grind
  simp only [Item.blank, Item.unplaced, Item.put, hw]

/-- In the order of their sizes, the sizes of items are the same however the items came. -/
theorem order_blank (h : items.Perm items') :
    (Algorithm.binaryTree.order items).map Item.blank =
      (Algorithm.binaryTree.order items').map Item.blank := by
  have sorted (items : List Item) : ((Algorithm.binaryTree.order items).map Item.blank).Pairwise
      fun i j => largerFirst i j = true :=
    List.pairwise_map.2 (Algorithm.binaryTree.order_sorted items)
  have perm : (Algorithm.binaryTree.order items).Perm (Algorithm.binaryTree.order items') :=
    ((Algorithm.order_perm _ items).trans h).trans (Algorithm.order_perm _ items').symm
  refine (perm.map _).eq_of_pairwise ?_ (sorted items) (sorted items')
  intro a b ha hb hab hba
  obtain ⟨i, -, rfl⟩ := List.mem_map.1 ha
  obtain ⟨j, -, rfl⟩ := List.mem_map.1 hb
  exact eq_of_largerFirst hab hba

theorem Tree.insertAll_blank {t t' : Tree} {origins : List (Int × Int)} :
    t.insertAll (items.map Item.blank) = .ok (origins, t') ↔
      t.insertAll items = .ok (origins, t') := by
  induction items generalizing t origins with
  | nil => rfl
  | cons i items ih =>
    simp only [List.map_cons, insertAll_cons_eq_ok, ih]
    rfl

theorem origins_blank {origins : List (Int × Int)} :
    Algorithm.binaryTree.origins (items.map Item.blank) = .ok origins ↔
      Algorithm.binaryTree.origins items = .ok origins := by
  have hseed : Tree.seed (items.map Item.blank) = Tree.seed items := by cases items <;> rfl
  rw [Algorithm.origins_binaryTree, Algorithm.origins_binaryTree, hseed]
  exact exists_congr fun t => Tree.insertAll_blank

theorem boxes_blank (origins : List (Int × Int)) :
    (List.zipWith Item.put (items.map Item.blank) origins).map Item.box =
      (List.zipWith Item.put items origins).map Item.box := by
  rw [List.zipWith_map_left, List.map_zipWith, List.map_zipWith]
  rfl

/-! ## Layouts -/

/-- A layout gives its items the origins that its algorithm finds for them in its order. -/
theorem arrange_places (algorithm : Algorithm) (hs : ∀ i ∈ items, i.Sized) :
    ∃ placed origins, arrange algorithm items = .ok placed ∧
      algorithm.origins (algorithm.order items) = .ok origins ∧
      placed.Perm (List.zipWith Item.put (algorithm.order items) origins) := by
  have perm := algorithm.order_perm items
  obtain ⟨origins, hok, -⟩ := Algorithm.origins_apart
    (fun i hi => hs i (perm.mem_iff.1 hi)) (algorithm.order_sorted items)
  obtain ⟨placed, harr, -, hperm⟩ :=
    arrange_of_origins hok ((Algorithm.origins_length hok).trans perm.length_eq)
  exact ⟨placed, origins, harr, hok, hperm⟩

/-- A stack spans the same canvas in whatever order its items are taken. -/
theorem extent_stack_perm {algorithm : Algorithm} {origins origins' : List (Int × Int)}
    (hstack : algorithm ≠ .binaryTree) (h : items.Perm items') (hs : ∀ i ∈ items, i.Sized)
    (ho : algorithm.origins items = .ok origins) (ho' : algorithm.origins items' = .ok origins') :
    extent (List.zipWith Item.put items origins) =
      extent (List.zipWith Item.put items' origins') := by
  have hs' : ∀ i ∈ items', i.Sized := fun i hi => hs i (h.mem_iff.2 hi)
  cases algorithm with
  | topDown =>
    cases ho
    cases ho'
    rw [extent_column hs, extent_column hs', widest_perm h, columnEnd_perm 0 h]
  | leftRight =>
    cases ho
    cases ho'
    rw [extent_row hs, extent_row hs', widest_perm (h.map _), columnEnd_perm 0 (h.map _)]
  | binaryTree => exact absurd rfl hstack

/-- A packing tree takes the same boxes at the same places, however the items came. -/
theorem boxes_of_origins {origins origins' : List (Int × Int)} (h : items.Perm items')
    (ho : Algorithm.binaryTree.origins (Algorithm.binaryTree.order items) = .ok origins)
    (ho' : Algorithm.binaryTree.origins (Algorithm.binaryTree.order items') = .ok origins') :
    (List.zipWith Item.put (Algorithm.binaryTree.order items) origins).map Item.box =
      (List.zipWith Item.put (Algorithm.binaryTree.order items') origins').map Item.box := by
  have same : origins = origins' := by
    rw [← origins_blank, order_blank h, origins_blank, ho'] at ho
    exact (Except.ok.inj ho).symm
  rw [← boxes_blank origins, order_blank h, same, boxes_blank origins']

/-- Items in another order span the same canvas, and a packing tree gives them the same boxes. -/
theorem arrange_reordered (algorithm : Algorithm) (h : items.Perm items')
    (hs : ∀ i ∈ items, i.Sized) :
    ∃ placed placed', arrange algorithm items = .ok placed ∧
      arrange algorithm items' = .ok placed' ∧ extent placed = extent placed' ∧
      (algorithm = .binaryTree → (placed.map Item.box).Perm (placed'.map Item.box)) := by
  have hs' : ∀ i ∈ items', i.Sized := fun i hi => hs i (h.mem_iff.2 hi)
  obtain ⟨placed, origins, harr, ho, hperm⟩ := arrange_places algorithm hs
  obtain ⟨placed', origins', harr', ho', hperm'⟩ := arrange_places algorithm hs'
  have boxes (hb : algorithm = .binaryTree) : (placed.map Item.box).Perm (placed'.map Item.box) := by
    subst hb
    refine (hperm.map _).trans ?_
    rw [boxes_of_origins h ho ho']
    exact (hperm'.map _).symm
  refine ⟨placed, placed', harr, harr', ?_, boxes⟩
  by_cases hb : algorithm = .binaryTree
  · exact extent_perm (boxes hb)
  · have taken : (algorithm.order items).Perm (algorithm.order items') :=
      ((algorithm.order_perm items).trans h).trans (algorithm.order_perm items').symm
    have sized : ∀ i ∈ algorithm.order items, i.Sized := fun i hi =>
      hs i ((algorithm.order_perm items).mem_iff.1 hi)
    rw [extent_perm (hperm.map _), extent_perm (hperm'.map _)]
    exact extent_stack_perm hb taken sized ho ho'

end Spriting.Layout

import Spriting.Proofs.Layout.Order
import Spriting.Proofs.Layout.Stacking
import Spriting.Proofs.Lists

/-!
# Every layout finds places for all items

Whatever the sizes of the items, as long as none is negative, each of the three
layouts answers, and in its answer no two items overlap and none sticks out of
the canvas that they span.
-/

namespace Spriting.Layout

/-! ## What items span -/

theorem le_greatest {ns : List Int} {n : Int} (h : n ∈ ns) : n ≤ greatest ns := by
  cases ns with
  | nil => simp at h
  | cons k ns =>
    obtain ⟨hk, hns⟩ := foldl_max_ge ns k
    rcases List.mem_cons.1 h with rfl | h
    · exact hk
    · exact hns n h

theorem greatest_mem {ns : List Int} (hne : ns ≠ []) : greatest ns ∈ ns := by
  obtain ⟨n, ns, rfl⟩ := List.exists_cons_of_ne_nil hne
  exact foldl_max_mem ns n

/-- A number that no other exceeds is the largest. -/
theorem greatest_eq {ns : List Int} {n : Int} (h : n ∈ ns) (hmax : ∀ m ∈ ns, m ≤ n) :
    greatest ns = n :=
  Int.le_antisymm (hmax _ (greatest_mem (List.ne_nil_of_mem h))) (le_greatest h)

/-- Of some things one is as large as the largest. -/
theorem exists_greatest {α : Type} {f : α → Int} {as : List α} (hne : as ≠ []) :
    ∃ a ∈ as, f a = greatest (as.map f) :=
  List.mem_map.1 (greatest_mem (mt List.map_eq_nil_iff.1 hne))

/-- The canvas of the answer of a layout. -/
def canvas (items : List Item) : Box := ⟨0, 0, (extent items).1, (extent items).2⟩

theorem within_canvas {items : List Item} {i : Item} (hi : i ∈ items) (hx : 0 ≤ i.x)
    (hy : 0 ≤ i.y) : i.box.Within (canvas items) := by
  have hw : i.x + i.width ≤ (extent items).1 := le_greatest (List.mem_map_of_mem hi)
  have hh : i.y + i.height ≤ (extent items).2 := le_greatest (List.mem_map_of_mem hi)
  exact ⟨hx, hy, by simpa [canvas, Item.box] using hw, by simpa [canvas, Item.box] using hh⟩

/-! ## The orders of the layouts -/

namespace Algorithm

theorem before_trans (algorithm : Algorithm) (i j k : Item) :
    algorithm.before i j = true → algorithm.before j k = true → algorithm.before i k = true := by
  cases algorithm with
  | topDown =>
    simp only [before, lowerFirst, decide_eq_true_eq]
    omega
  | leftRight =>
    simp only [before, narrowerFirst, decide_eq_true_eq]
    omega
  | binaryTree =>
    simp only [before, largerFirst]
    split <;> split <;> split <;> simp only [decide_eq_true_eq] <;> grind

theorem before_total (algorithm : Algorithm) (i j : Item) :
    (algorithm.before i j || algorithm.before j i) = true := by
  cases algorithm with
  | topDown =>
    simp only [before, lowerFirst, Bool.or_eq_true, decide_eq_true_eq]
    omega
  | leftRight =>
    simp only [before, narrowerFirst, Bool.or_eq_true, decide_eq_true_eq]
    omega
  | binaryTree =>
    simp only [before, largerFirst, Bool.or_eq_true]
    grind

theorem order_sorted (algorithm : Algorithm) (items : List Item) :
    (algorithm.order items).Pairwise fun i j => algorithm.before i j = true :=
  List.pairwise_mergeSort algorithm.before_trans algorithm.before_total items

/-- The origins of a packing tree are those of the run that fills it. -/
theorem origins_binaryTree {items : List Item} {origins : List (Int × Int)} :
    binaryTree.origins items = .ok origins ↔
      ∃ t, (Tree.seed items).insertAll items = .ok (origins, t) := by
  rw [Algorithm.origins]
  cases (Tree.seed items).insertAll items with
  | error e => simp [Except.map]
  | ok p => simp [Except.map, Prod.ext_iff]

/-- No algorithm leaves out an item, whatever its size. -/
theorem origins_length {algorithm : Algorithm} {items : List Item} {origins : List (Int × Int)}
    (h : algorithm.origins items = .ok origins) : origins.length = items.length := by
  cases algorithm with
  | topDown =>
    cases h
    exact length_column 0
  | leftRight =>
    cases h
    exact length_row 0
  | binaryTree =>
    obtain ⟨t, hrun⟩ := origins_binaryTree.1 h
    exact Tree.insertAll_length hrun

/-- Items in the order of an algorithm all find an origin, and stand apart there. -/
theorem origins_apart {algorithm : Algorithm} {items : List Item} (hs : ∀ i ∈ items, i.Sized)
    (ho : items.Pairwise fun i j => algorithm.before i j = true) :
    ∃ origins, algorithm.origins items = .ok origins ∧
      ItemsApart (List.zipWith Item.put items origins) ∧
      ∀ i ∈ List.zipWith Item.put items origins, 0 ≤ i.x ∧ 0 ≤ i.y := by
  cases algorithm with
  | topDown =>
    refine ⟨column 0 items, rfl, column_apart hs, ?_⟩
    intro i hi
    have := mem_column hs i hi
    omega
  | leftRight =>
    refine ⟨row 0 items, rfl, row_apart hs, ?_⟩
    intro i hi
    have := mem_row hs i hi
    omega
  | binaryTree =>
    obtain ⟨origins, t, hok⟩ := Tree.seed_insertAll_isOk hs ho
    have hp := Tree.seed_insertAll_packs hs hok
    refine ⟨origins, origins_binaryTree.2 ⟨t, hok⟩, ?_, ?_⟩
    · exact itemsApart_iff.2 (List.pairwise_append.1 hp.apart).1
    · intro i hi
      obtain ⟨hl, ht, -, -⟩ := hp.within i.box (List.mem_append_left _ (List.mem_map_of_mem hi))
      obtain ⟨hx, hy⟩ := hp.origin
      rw [hx] at hl
      rw [hy] at ht
      exact ⟨hl, ht⟩

end Algorithm

/-! ## The answer of a layout -/

/-- `placed` answers a layout of `items`: they are the same items in the same order,
no two of them overlap, and each lies in the canvas that they span. -/
structure Answers (items placed : List Item) : Prop where
  same : placed.map Item.unplaced = items.map Item.unplaced
  apart : ItemsApart placed
  within : ∀ i ∈ placed, i.box.Within (canvas placed)

theorem arrange_answers (algorithm : Algorithm) {items : List Item}
    (hs : ∀ i ∈ items, i.Sized) :
    ∃ placed, arrange algorithm items = .ok placed ∧ Answers items placed := by
  have perm := algorithm.order_perm items
  obtain ⟨origins, hok, hapart, horigin⟩ := Algorithm.origins_apart
    (fun i hi => hs i (perm.mem_iff.1 hi)) (algorithm.order_sorted items)
  obtain ⟨placed, harr, hsame, hperm⟩ :=
    arrange_of_origins hok ((Algorithm.origins_length hok).trans perm.length_eq)
  refine ⟨placed, harr, hsame, (itemsApart_perm hperm).2 hapart, ?_⟩
  intro i hi
  obtain ⟨hx, hy⟩ := horigin i (hperm.mem_iff.1 hi)
  exact within_canvas hi hx hy

/-- Whatever answer a layout gives, it holds the items that were asked about. -/
theorem arrange_unplaced {algorithm : Algorithm} {items placed : List Item}
    (h : arrange algorithm items = .ok placed) :
    placed.map Item.unplaced = items.map Item.unplaced := by
  cases ho : algorithm.origins (algorithm.order items) with
  | error e =>
    rw [arrange_eq, ho] at h
    cases h
  | ok origins =>
    have hlen := (Algorithm.origins_length ho).trans (algorithm.order_perm items).length_eq
    obtain ⟨placed', harr, hsame, -⟩ := arrange_of_origins ho hlen
    rw [harr] at h
    cases h
    exact hsame

theorem arrangeNamed_name (algorithm : Algorithm) :
    arrangeNamed algorithm.name = arrange algorithm := by
  have : Algorithm.ofName? algorithm.name = some algorithm := by cases algorithm <;> decide
  funext items
  simp [arrangeNamed, this]

/-- **A packing tree keeps its items apart.** Any items of sizes that are not negative
all find a place, in the canvas that they span, and of every two of them one lies
entirely to the left of the other, to the right of it, above it or below it. -/
theorem binaryTree_answers (items : List Item) (hs : ∀ i ∈ items, i.Sized) :
    ∃ placed, arrangeNamed "binary-tree" items = .ok placed ∧ Answers items placed := by
  have hname : arrangeNamed "binary-tree" = arrange .binaryTree := arrangeNamed_name .binaryTree
  rw [hname]
  exact arrange_answers .binaryTree hs

/-- The canvas grows to the right and down, and one item has no width. -/
theorem binaryTree_answers_growing :
    let items : List Item := [⟨"a", 4, 4, 0, 0⟩, ⟨"b", 4, 3, 0, 0⟩, ⟨"c", 0, 9, 5, 5⟩, ⟨"d", 8, 1, 0, 0⟩]
    (∀ i ∈ items, i.Sized) ∧
    ∃ placed, arrangeNamed "binary-tree" items = .ok placed ∧ Answers items placed := by
  intro items
  have hs : ∀ i ∈ items, i.Sized := by decide
  exact ⟨hs, binaryTree_answers items hs⟩

end Spriting.Layout

import Mathlib
import Spriting.Proofs.Layout.Reordering

/-!
# Columns and rows keep their lines clear

A column begins in the upper left corner of the canvas, with the lowest item, and every item
begins where the one before it ends.  So no row of the canvas belongs to two of its items.  A
row is a column with the sides exchanged, down to the order of items of one size.

* `order_of_arrange`: sorted by their turns, the items of an answer stand where their
  algorithm put them;
* `arrange_column`: what the answer of a column is;
* `arrange_transpose`: the answer of a row is that of a column, transposed.
-/

namespace Spriting.Layout

variable {items placed : List Item} {algorithm : Algorithm} {origins : List (Int × Int)}

/-! ## Lines of the canvas -/

/-- The rows in which a box lies. -/
def Box.rows (b : Box) : Set Int := Set.Ico b.y (b.y + b.height)

/-- The columns in which a box lies. -/
def Box.columns (b : Box) : Set Int := Set.Ico b.x (b.x + b.width)

theorem Box.Within.rows_subset {a b : Box} (h : a.Within b) : a.rows ⊆ b.rows :=
  Set.Ico_subset_Ico h.top h.bottom

theorem Box.Within.columns_subset {a b : Box} (h : a.Within b) : a.columns ⊆ b.columns :=
  Set.Ico_subset_Ico h.left h.right

/-- No row belongs to a box and to another that lies below it. -/
theorem Box.rows_disjoint {a b : Box} (h : a.y + a.height ≤ b.y) : Disjoint a.rows b.rows := by
  rw [Box.rows, Box.rows, Set.Ico_disjoint_Ico]
  omega

/-! ## Turns -/

theorem Item.sized_unplaced {i : Item} : i.unplaced.Sized ↔ i.Sized :=
  ⟨fun h => ⟨h.width, h.height⟩, fun h => ⟨h.width, h.height⟩⟩

theorem taken_bare (algorithm : Algorithm) (items : List (Item × Nat)) :
    (items.mergeSort fun a b => algorithm.before a.1 b.1).map bare =
      (items.map bare).mergeSort fun a b => algorithm.before a.1 b.1 :=
  List.map_mergeSort fun _ _ _ _ => by cases algorithm <;> rfl

/-- The answer numbers its items as they stand in it. -/
theorem zipIdx_answer (hlen : origins.length = items.length) :
    ((answer algorithm items origins).map Prod.fst).zipIdx = answer algorithm items origins := by
  have numbers : (answer algorithm items origins).map Prod.snd = List.range' 0 items.length := by
    have := congrArg (List.map Prod.snd) (answer_bare algorithm hlen)
    rwa [List.zipIdx_map_snd, List.length_map, List.map_map] at this
  have hcount : (answer algorithm items origins).length = items.length := by
    simpa using congrArg List.length numbers
  rw [List.zipIdx_eq_zip_range', List.length_map, hcount]
  exact (List.zip_of_prod rfl numbers).symm

/-- Sorted by their turns, the items of an answer stand where their algorithm put them, also
where it is left to the order of the question which of two comes first. -/
theorem order_of_arrange (harr : arrange algorithm items = .ok placed)
    (ho : algorithm.origins (algorithm.order items) = .ok origins) :
    algorithm.order placed = List.zipWith Item.put (algorithm.order items) origins := by
  have hlen := (Algorithm.origins_length ho).trans (algorithm.order_perm items).length_eq
  have hcount : (algorithm.taken items).length ≤ origins.length :=
    Nat.le_of_eq ((algorithm.length_taken items).trans hlen.symm)
  have hplaced : placed.zipIdx = answer algorithm items origins := by
    rw [arrange_eq, ho] at harr
    cases harr
    exact zipIdx_answer hlen
  have perm : placed.zipIdx.Perm (putAll (algorithm.taken items) origins) :=
    hplaced ▸ List.mergeSort_perm _ _
  -- both are sorted by turns, and numbers tell items of one turn apart
  have same : algorithm.taken placed = putAll (algorithm.taken items) origins := by
    have numbers : (placed.zipIdx.map Prod.snd).Nodup := by
      rw [List.zipIdx_map_snd]
      exact List.nodup_range'
    refine eq_of_map_eq (f := bare) ?_ ?_
    · intro p hp q hq hpq
      have number : (bare p).2 = (bare q).2 := congrArg Prod.snd hpq
      exact List.inj_on_of_nodup_map numbers ((algorithm.taken_perm placed).mem_iff.1 hp)
        (perm.mem_iff.2 hq) number
    · calc (algorithm.taken placed).map bare
          = ((items.map Item.unplaced).zipIdx).mergeSort fun a b => algorithm.before a.1 b.1 := by
            rw [Algorithm.taken, taken_bare, hplaced, answer_bare algorithm hlen]
        _ = (algorithm.taken items).map bare := by
            rw [List.zipIdx_map, Algorithm.taken, taken_bare]
            rfl
        _ = (putAll (algorithm.taken items) origins).map bare := (putAll_map_bare hcount).symm
  rw [← algorithm.taken_map_fst placed, same, putAll_map_fst, algorithm.taken_map_fst items]

/-! ## Columns -/

/-- Items one below the other at the left edge, from row `y` on and without gaps. -/
def StackedFrom (y : Int) : List Item → Prop
  | [] => True
  | i :: items => i.x = 0 ∧ i.y = y ∧ StackedFrom (y + i.height) items

/-- `placed` are `items` in one column: by height, the lowest first, and else as they came,
they are stacked from the upper left corner on, and no row belongs to two of them.  The column
is as wide as the widest item and as high as all together. -/
structure Columned (items placed : List Item) : Prop where
  same : placed.map Item.unplaced = items.map Item.unplaced
  left : ∀ i ∈ placed, i.x = 0
  stacked : StackedFrom 0 (placed.mergeSort fun i j => i.height ≤ j.height)
  clear : placed.Pairwise fun i j => Disjoint i.box.rows j.box.rows
  extent : extent placed = ((items.map Item.width).foldr max 0, (items.map Item.height).sum)

theorem stackedFrom_column (y : Int) :
    StackedFrom y (List.zipWith Item.put items (column y items)) := by
  induction items generalizing y with
  | nil => trivial
  | cons i items ih => exact ⟨rfl, rfl, ih (y + i.height)⟩

theorem StackedFrom.left {y : Int} (h : StackedFrom y items) : ∀ i ∈ items, i.x = 0 := by
  induction items generalizing y with
  | nil => nofun
  | cons i items ih => exact List.forall_mem_cons.2 ⟨h.1, ih h.2.2⟩

theorem StackedFrom.below {y : Int} (h : StackedFrom y items) (hs : ∀ i ∈ items, i.Sized) :
    ∀ i ∈ items, y ≤ i.y := by
  induction items generalizing y with
  | nil => nofun
  | cons i items ih =>
    obtain ⟨-, hy, hrest⟩ := h
    obtain ⟨hi, hitems⟩ := List.forall_mem_cons.1 hs
    refine List.forall_mem_cons.2 ⟨Int.le_of_eq hy.symm, ?_⟩
    intro j hj
    have := ih hrest hitems j hj
    have := hi.height
    omega

theorem StackedFrom.clear {y : Int} (h : StackedFrom y items) (hs : ∀ i ∈ items, i.Sized) :
    items.Pairwise fun i j => Disjoint i.box.rows j.box.rows := by
  induction items generalizing y with
  | nil => exact .nil
  | cons i items ih =>
    obtain ⟨-, rfl, hrest⟩ := h
    have hitems := (List.forall_mem_cons.1 hs).2
    refine List.pairwise_cons.2 ⟨?_, ih hrest hitems⟩
    intro j hj
    exact Box.rows_disjoint (hrest.below hitems j hj)

/-! ## What a column spans -/

theorem foldl_max_eq {n : Int} (hn : 0 ≤ n) (ns : List Int) :
    ns.foldl max n = max n (ns.foldr max 0) := by
  induction ns generalizing n with
  | nil =>
    simp only [List.foldl_nil, List.foldr_nil]
    omega
  | cons k ns ih =>
    rw [List.foldl_cons, List.foldr_cons, ih (by omega)]
    omega

theorem widest_eq (hs : ∀ i ∈ items, i.Sized) :
    widest items = (items.map Item.width).foldr max 0 := by
  cases items with
  | nil => rfl
  | cons i items => exact foldl_max_eq (hs i List.mem_cons_self).width _

theorem columnEnd_eq (y : Int) : columnEnd y items = y + (items.map Item.height).sum := by
  induction items generalizing y with
  | nil => simp [columnEnd]
  | cons i items ih =>
    rw [columnEnd, List.foldl_cons, ← columnEnd, ih, List.map_cons, List.sum_cons]
    omega

theorem extent_answer (hs : ∀ i ∈ items, i.Sized)
    (hperm : placed.Perm (List.zipWith Item.put (Algorithm.topDown.order items)
      (column 0 (Algorithm.topDown.order items)))) :
    extent placed = ((items.map Item.width).foldr max 0, (items.map Item.height).sum) := by
  have perm := Algorithm.topDown.order_perm items
  have sized : ∀ i ∈ Algorithm.topDown.order items, i.Sized := fun i hi => hs i (perm.mem_iff.1 hi)
  rw [extent_perm (hperm.map _), extent_column sized, widest_perm perm, columnEnd_perm 0 perm,
    widest_eq hs, columnEnd_eq, Int.zero_add]

/-- Items of sizes that are not negative are answered in one column. -/
theorem arrange_column (hs : ∀ i ∈ items, i.Sized) :
    ∃ placed, arrange .topDown items = .ok placed ∧ Columned items placed := by
  obtain ⟨placed, origins, harr, ho, hperm⟩ := arrange_places .topDown hs
  have turns := order_of_arrange harr ho
  have same := arrange_unplaced harr
  cases ho
  have stacked : StackedFrom 0 (Algorithm.topDown.order placed) := turns ▸ stackedFrom_column 0
  have perm := Algorithm.topDown.order_perm placed
  have sized : ∀ i ∈ placed, i.Sized := by
    refine fun i hi => Item.sized_unplaced.1 ?_
    exact (forall_mem_iff_of_map_eq same Item.Sized).2
      (fun j hj => Item.sized_unplaced.2 (hs j hj)) i hi
  refine ⟨placed, harr, same, ?_, stacked, ?_, extent_answer hs hperm⟩
  · exact fun i hi => stacked.left i (perm.mem_iff.2 hi)
  · refine (perm.pairwise_iff fun h => h.symm).1 (stacked.clear ?_)
    exact fun i hi => sized i (perm.mem_iff.1 hi)

/-! ## Rows -/

/-- Items take their turns in a row as in a column when their sides are exchanged. -/
theorem taken_transpose (items : List Item) :
    Algorithm.topDown.taken (items.map Item.transpose) =
      (Algorithm.leftRight.taken items).map (Prod.map Item.transpose id) := by
  rw [Algorithm.taken, List.zipIdx_map, Algorithm.taken]
  refine (List.map_mergeSort (f := Prod.map Item.transpose id) ?_).symm
  exact fun _ _ _ _ => rfl

theorem putAll_transpose (taken : List (Item × Nat)) (origins : List (Int × Int)) :
    putAll (taken.map (Prod.map Item.transpose id)) origins =
      (putAll taken (origins.map Prod.swap)).map (Prod.map Item.transpose id) := by
  rw [putAll, putAll, List.map_zipWith, List.zipWith_map_left, List.zipWith_map_right]
  rfl

theorem answer_transpose (items : List Item) (origins : List (Int × Int)) :
    answer .topDown (items.map Item.transpose) origins =
      (answer .leftRight items (origins.map Prod.swap)).map (Prod.map Item.transpose id) := by
  rw [answer, taken_transpose, putAll_transpose, answer]
  refine (List.map_mergeSort (f := Prod.map Item.transpose id) ?_).symm
  exact fun _ _ _ _ => rfl

/-- The answer of a row is that of a column with the sides exchanged, transposed. -/
theorem arrange_transpose (items : List Item) :
    arrange .leftRight items =
      (arrange .topDown (items.map Item.transpose)).map (List.map Item.transpose) := by
  have turns : Algorithm.topDown.order (items.map Item.transpose) =
      (Algorithm.leftRight.order items).map Item.transpose := by
    rw [← Algorithm.taken_map_fst, taken_transpose, ← Algorithm.taken_map_fst, List.map_map,
      List.map_map]
    rfl
  have back : Item.transpose ∘ Prod.fst ∘ Prod.map Item.transpose (id : Nat → Nat) = Prod.fst := rfl
  simp only [arrange_eq, Algorithm.origins, Except.map, turns, answer_transpose, ← row_eq_swap,
    List.map_map, back]

/-- No column of the canvas belongs to two items of a row. -/
theorem arrange_row_clear (hs : ∀ i ∈ items, i.Sized) :
    ∃ placed, arrange .leftRight items = .ok placed ∧
      placed.Pairwise fun i j => Disjoint i.box.columns j.box.columns := by
  obtain ⟨placed, harr, hcolumn⟩ := arrange_column (sized_transpose hs)
  refine ⟨placed.map Item.transpose, ?_, List.pairwise_map.2 hcolumn.clear⟩
  rw [arrange_transpose, harr]
  rfl

end Spriting.Layout

import Spriting.Layout.Stack
import Spriting.Proofs.Layout.Apart

/-!
# Stacked items stand apart

In a column every item begins where the one before it ends, so all that come
later lie below it.  A row is a column with the sides of its items exchanged.

* `mem_column`, `column_apart`: the items of a column;
* `row_eq_column`: the items of a row;
* `mem_row`, `row_apart`: so what holds of columns holds of rows.
-/

namespace Spriting.Layout

variable {items : List Item}

/-! ## Columns -/

theorem length_column (y : Int) : (column y items).length = items.length := by
  induction items generalizing y with
  | nil => rfl
  | cons i items ih => simp [column, ih]

/-- The items of a column stand at its left edge, none of them above its start. -/
theorem mem_column {y : Int} (hs : ∀ i ∈ items, i.Sized) :
    ∀ i ∈ List.zipWith Item.put items (column y items), i.x = 0 ∧ y ≤ i.y := by
  induction items generalizing y with
  | nil => simp [column]
  | cons j items ih =>
    obtain ⟨-, hh⟩ := hs j List.mem_cons_self
    intro i hi
    rcases List.mem_cons.1 hi with rfl | hi
    · exact ⟨rfl, Int.le_refl _⟩
    · obtain ⟨hx, hy⟩ := ih (fun k hk => hs k (List.mem_cons_of_mem _ hk)) i hi
      exact ⟨hx, by omega⟩

theorem column_apart {y : Int} (hs : ∀ i ∈ items, i.Sized) :
    ItemsApart (List.zipWith Item.put items (column y items)) := by
  induction items generalizing y with
  | nil => exact .nil
  | cons j items ih =>
    have hs' : ∀ i ∈ items, i.Sized := fun k hk => hs k (List.mem_cons_of_mem _ hk)
    refine List.pairwise_cons.2 ⟨?_, ih hs'⟩
    intro i hi
    have := (mem_column hs' i hi).2
    exact .inr (.inr (.inl this))

/-! ## Rows -/

/-- The item with its sides exchanged. -/
def Item.transpose (i : Item) : Item :=
  { i with width := i.height, height := i.width, x := i.y, y := i.x }

theorem Item.Sized.transpose {i : Item} (h : i.Sized) : i.transpose.Sized := ⟨h.height, h.width⟩

theorem sized_transpose (hs : ∀ i ∈ items, i.Sized) : ∀ i ∈ items.map Item.transpose, i.Sized :=
  List.forall_mem_map.2 fun i hi => (hs i hi).transpose

theorem ItemsApart.transpose (h : ItemsApart items) : ItemsApart (items.map Item.transpose) := by
  refine List.pairwise_map.2 (h.imp ?_)
  rintro i j (hleft | hright | habove | hbelow)
  · exact .inr (.inr (.inl hleft))
  · exact .inr (.inr (.inr hright))
  · exact .inl habove
  · exact .inr (.inl hbelow)

theorem row_eq_swap (x : Int) :
    row x items = (column x (items.map Item.transpose)).map Prod.swap := by
  induction items generalizing x with
  | nil => rfl
  | cons i items ih =>
    simp only [row, column, List.map_cons, ih (x + i.width)]
    rfl

/-- A row is a column with the sides exchanged. -/
theorem row_eq_column (x : Int) :
    List.zipWith Item.put items (row x items) =
      (List.zipWith Item.put (items.map Item.transpose) (column x (items.map Item.transpose))).map
        Item.transpose := by
  rw [row_eq_swap, List.map_zipWith, List.zipWith_map_left, List.zipWith_map_right]
  rfl

theorem length_row (x : Int) : (row x items).length = items.length := by
  rw [row_eq_swap, List.length_map, length_column, List.length_map]

/-- The items of a row stand at its upper edge, none of them left of its start. -/
theorem mem_row {x : Int} (hs : ∀ i ∈ items, i.Sized) :
    ∀ i ∈ List.zipWith Item.put items (row x items), i.y = 0 ∧ x ≤ i.x := by
  rw [row_eq_column]
  exact List.forall_mem_map.2 (mem_column (sized_transpose hs))

theorem row_apart {x : Int} (hs : ∀ i ∈ items, i.Sized) :
    ItemsApart (List.zipWith Item.put items (row x items)) := by
  rw [row_eq_column]
  exact (column_apart (sized_transpose hs)).transpose

end Spriting.Layout

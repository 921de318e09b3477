import Spriting.Layout.Algorithm
import Spriting.Proofs.Layout.Packing

/-!
# Layouts answer in the order of the question

An algorithm takes the items in an order of its own, but the answer lists them as
they came, each with the place that it was given.

* `mergeSort_of_perm_zipIdx`: sorting numbered things by their numbers undoes any
  reordering of them;
* `arrange_of_origins`: what the answer is made of, once the algorithm has found
  an origin for every item.
-/

namespace Spriting.Layout

/-- Numbered things that are sorted by their numbers come back as they were. -/
theorem mergeSort_of_perm_zipIdx {α : Type} {xs : List α} {ys : List (α × Nat)}
    (h : ys.Perm xs.zipIdx) : ys.mergeSort (fun a b => a.2 ≤ b.2) = xs.zipIdx := by
  apply @List.Perm.eq_of_pairwise _ (fun a b : α × Nat => a.2 ≤ b.2) _ _ _ _ _
    ((List.mergeSort_perm _ _).trans h)
  · intro a b ha hb hab hba
    have ha' := h.mem_iff.1 ((List.mergeSort_perm _ _).mem_iff.1 ha)
    rw [List.mem_zipIdx_iff_getElem?] at ha' hb
    have hn : a.2 = b.2 := by omega
    rw [hn, hb] at ha'
    exact Prod.ext (Option.some.inj ha').symm hn
  · have sorted := @List.pairwise_mergeSort _ (fun (a b : α × Nat) => decide (a.2 ≤ b.2))
      (fun a b c => by simp only [decide_eq_true_eq]; omega)
      (fun a b => by simp only [Bool.or_eq_true, decide_eq_true_eq]; omega) ys
    exact sorted.imp (by simp)
  · have increasing : (xs.zipIdx.map Prod.snd).Pairwise (· ≤ ·) := by
      rw [List.zipIdx_map_snd]
      exact List.pairwise_le_range'
    exact List.pairwise_map.1 increasing

namespace Algorithm

/-- The items in the order in which an algorithm takes them. -/
def order (algorithm : Algorithm) (items : List Item) : List Item :=
  items.mergeSort algorithm.before

theorem order_perm (algorithm : Algorithm) (items : List Item) :
    (algorithm.order items).Perm items := List.mergeSort_perm _ _

/-- The same items in the same order, numbered as they came. -/
def taken (algorithm : Algorithm) (items : List Item) : List (Item × Nat) :=
  items.zipIdx.mergeSort fun a b => algorithm.before a.1 b.1

theorem taken_perm (algorithm : Algorithm) (items : List Item) :
    (algorithm.taken items).Perm items.zipIdx := List.mergeSort_perm _ _

theorem length_taken (algorithm : Algorithm) (items : List Item) :
    (algorithm.taken items).length = items.length := by
  rw [(algorithm.taken_perm items).length_eq, List.length_zipIdx]

theorem taken_map_fst (algorithm : Algorithm) (items : List Item) :
    (algorithm.taken items).map Prod.fst = algorithm.order items := by
  rw [taken, List.map_mergeSort (s := algorithm.before) (fun _ _ _ _ => rfl), List.zipIdx_map_fst]
  rfl

end Algorithm

/-- Numbered items in the places that they were given. -/
def putAll (taken : List (Item × Nat)) (origins : List (Int × Int)) : List (Item × Nat) :=
  List.zipWith (fun p origin => (p.1.put origin, p.2)) taken origins

/-- A numbered item without its place. -/
def bare (p : Item × Nat) : Item × Nat := (p.1.unplaced, p.2)

theorem putAll_map_fst (taken : List (Item × Nat)) (origins : List (Int × Int)) :
    (putAll taken origins).map Prod.fst = List.zipWith Item.put (taken.map Prod.fst) origins := by
  rw [putAll, List.map_zipWith, List.zipWith_map_left]

theorem putAll_map_bare {taken : List (Item × Nat)} {origins : List (Int × Int)}
    (h : taken.length ≤ origins.length) : (putAll taken origins).map bare = taken.map bare := by
  induction taken generalizing origins with
  | nil => rfl
  | cons p taken ih =>
    cases origins with
    | nil => simp at h
    | cons origin origins =>
      have hle : taken.length ≤ origins.length := by simpa using h
      simpa [putAll, bare] using ih hle

/-- Sorting by number gives every item its place in the list back. -/
theorem mergeSort_bare {items : List Item} {placed : List (Item × Nat)}
    (h : (placed.map bare).Perm (items.map Item.unplaced).zipIdx) :
    (placed.mergeSort fun a b => a.2 ≤ b.2).map bare = (items.map Item.unplaced).zipIdx := by
  rw [List.map_mergeSort (r := fun a b => decide (a.2 ≤ b.2))
    (s := fun a b => decide (a.2 ≤ b.2)) (f := bare) (fun _ _ _ _ => rfl)]
  exact mergeSort_of_perm_zipIdx h

/-- Items in the places that they were given, in the order in which they came. -/
def answer (algorithm : Algorithm) (items : List Item) (origins : List (Int × Int)) :
    List (Item × Nat) :=
  (putAll (algorithm.taken items) origins).mergeSort fun a b => a.2 ≤ b.2

section Answers

variable {algorithm : Algorithm} {items : List Item} {origins : List (Int × Int)}

/-- A layout answers as soon as its algorithm has found the origins. -/
theorem arrange_eq (algorithm : Algorithm) (items : List Item) :
    arrange algorithm items = (algorithm.origins (algorithm.order items)).map fun origins =>
      (answer algorithm items origins).map Prod.fst := by
  rw [← algorithm.taken_map_fst items]
  simp only [arrange, answer, putAll, List.zip, List.map_zipWith]
  rfl

/-- An answer has the items that were asked about, with their numbers. -/
theorem answer_bare (algorithm : Algorithm) (hlen : origins.length = items.length) :
    (answer algorithm items origins).map bare = (items.map Item.unplaced).zipIdx := by
  have hcount : (algorithm.taken items).length ≤ origins.length :=
    Nat.le_of_eq ((algorithm.length_taken items).trans hlen.symm)
  apply mergeSort_bare
  rw [putAll_map_bare hcount, List.zipIdx_map]
  exact (algorithm.taken_perm items).map _

/-- The answer holds the items that were asked about, in their order, and they stand
where the algorithm put them. -/
theorem arrange_of_origins (ho : algorithm.origins (algorithm.order items) = .ok origins)
    (hlen : origins.length = items.length) :
    ∃ placed, arrange algorithm items = .ok placed ∧
      placed.map Item.unplaced = items.map Item.unplaced ∧
      placed.Perm (List.zipWith Item.put (algorithm.order items) origins) := by
  refine ⟨(answer algorithm items origins).map Prod.fst, ?_, ?_, ?_⟩
  · rw [arrange_eq, ho]
    rfl
  · have := congrArg (List.map Prod.fst) (answer_bare algorithm hlen)
    rw [List.zipIdx_map_fst, List.map_map] at this
    rw [List.map_map]
    exact this
  · rw [← algorithm.taken_map_fst items, ← putAll_map_fst]
    exact (List.mergeSort_perm _ _).map _

end Answers

end Spriting.Layout

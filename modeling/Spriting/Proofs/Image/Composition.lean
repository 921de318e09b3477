import Spriting.Image.Library
import Spriting.Proofs.Layout.Apart
import Spriting.Proofs.Lists

/-!
# Layers that do not overlap

Of the layers that cover a pixel the last one counts.  Where no two layers
overlap there is at most one, so the order of the layers does not matter and every
one of them shows as it is.

* `compose_of_covers`, `compose_of_bare`: what a canvas shows;
* `Library.oneWay_roomy`: what lies in a canvas that can be made can be put on it.
-/

namespace Spriting.Image

open Layout

namespace Layer

/-- The part of its canvas that a layer covers. -/
def box (l : Layer) : Box := ⟨l.x, l.y, l.image.width, l.image.height⟩

/-- Two layers cover no pixel together. -/
def Apart (a b : Layer) : Prop := a.box.Apart b.box

theorem Apart.symm {a b : Layer} (h : a.Apart b) : b.Apart a := Box.Apart.symm h

theorem covers_iff {l : Layer} {x y : Nat} :
    l.covers x y = true ↔
      (l.x ≤ x ∧ x < l.x + l.image.width) ∧ l.y ≤ y ∧ y < l.y + l.image.height := by
  simp only [covers, meetsRow, Bool.and_eq_true, decide_eq_true_eq]

theorem not_covers_of_apart {a b : Layer} {x y : Nat} (h : a.Apart b) (ha : a.covers x y = true) :
    b.covers x y = false := by
  rw [covers_iff] at ha
  apply Bool.eq_false_iff.2
  rw [Ne, covers_iff]
  unfold Apart Box.Apart at h
  simp only [box] at h
  omega

end Layer

variable {layers : List Layer} {l : Layer} {x y : Nat}

theorem topPixel_of_covers (hp : layers.Pairwise Layer.Apart) (hl : l ∈ layers)
    (hc : l.covers x y = true) : topPixel layers x y = l.pixel x y := by
  induction layers with
  | nil => simp at hl
  | cons k layers ih =>
    obtain ⟨hk, hp⟩ := List.pairwise_cons.1 hp
    rcases List.mem_cons.1 hl with rfl | hl
    · simp [topPixel, hc]
    · have hck : k.covers x y = false := Layer.not_covers_of_apart (hk l hl).symm hc
      have := ih hp hl
      simpa [topPixel, hck] using this

theorem topPixel_of_bare (hn : ∀ l ∈ layers, l.covers x y = false) :
    topPixel layers x y = .clear := by
  have : layers.find? (·.covers x y) = none :=
    List.find?_eq_none.2 fun l hl => by simp [hn l hl]
  simp [topPixel, this]

/-- A layer that no other overlaps shows as it is. -/
theorem compose_of_covers {width height : Nat} (hp : layers.Pairwise Layer.Apart) (hl : l ∈ layers)
    (hc : l.covers x y = true) (hy : y < height) :
    (compose width height layers).pixel x y = l.pixel x y := by
  rw [pixel_compose layers x hy]
  apply topPixel_of_covers _ (List.mem_reverse.2 hl) hc
  exact List.pairwise_reverse.2 (hp.imp Layer.Apart.symm)

/-- The canvas shows where no layer lies. -/
theorem compose_of_bare {width height : Nat} (hn : ∀ l ∈ layers, l.covers x y = false)
    (hy : y < height) : (compose width height layers).pixel x y = .clear := by
  rw [pixel_compose layers x hy]
  exact topPixel_of_bare fun l hl => hn l (List.mem_reverse.1 hl)

/-! ## When a canvas is refused -/

theorem checkCoordinate_of_size {n : Int} {m : Nat} (hm : checkCoordinate m = .ok ())
    (h0 : 0 ≤ n) (hn : n ≤ m) : checkCoordinate n = .ok () := by
  simp only [checkCoordinate] at hm ⊢
  split at hm
  · cases hm
  · split at hm
    · cases hm
    · split at hm
      · cases hm
      · rw [if_neg (by omega), if_neg (by omega), if_neg (by omega)]

theorem checkSize_sides {width height : Nat} (h : checkSize width height = .ok ()) :
    checkCoordinate width = .ok () ∧ checkCoordinate height = .ok () := by
  unfold checkSize at h
  cases hw : checkCoordinate width with
  | error e => rw [hw] at h; cases h
  | ok u =>
    cases hh : checkCoordinate height with
    | error e => rw [hw, hh] at h; cases h
    | ok v => exact ⟨rfl, rfl⟩

/-- A layer that lies in a canvas that can be made can be put on it. -/
theorem checkPlace_of_within {width height : Nat} (h : checkSize width height = .ok ())
    (hw : l.box.Within ⟨0, 0, width, height⟩) :
    checkPlace l.x l.y l.image.width l.image.height = .ok () := by
  obtain ⟨hcw, hch⟩ := checkSize_sides h
  obtain ⟨hl, ht, hr, hb⟩ := hw
  simp only [Layer.box] at hl ht hr hb
  have h₁ := checkCoordinate_of_size (n := l.x) hcw (by omega) (by omega)
  have h₂ := checkCoordinate_of_size (n := l.y) hch (by omega) (by omega)
  have h₃ := checkCoordinate_of_size (n := l.x + l.image.width) hcw (by omega) (by omega)
  have h₄ := checkCoordinate_of_size (n := l.y + l.image.height) hch (by omega) (by omega)
  rw [checkPlace, h₁, h₂, h₃, h₄]
  rfl

/-- Of layers that lie in a canvas none keeps it from being made. -/
def Library.Roomy (library : Library) : Prop :=
  ∀ (width height : Nat) (layers : List Layer),
    (∀ l ∈ layers, l.box.Within ⟨0, 0, width, height⟩) →
    library.canvas width height layers = library.canvas width height []

theorem Library.oneWay_roomy : Library.oneWay.Roomy := by
  intro width height layers h
  simp only [oneWay]
  cases hs : checkSize width height with
  | error e => rfl
  | ok u => exact forM_ok fun l hl => checkPlace_of_within hs (h l hl)

end Spriting.Image

import Spriting.Proofs.Layout.Reordering
import Spriting.Proofs.Sprite.Faithful

/-!
# The size of a sheet does not depend on the order of its images

Images that are named in another order, or more than once, are the same items in another
order, and these span the same canvas.

* `loadAll_reordered`: what is loaded does not depend on the order of the names;
* `pack_reordered`: a sheet is planned as large as before;
* `packNamed_reordered`: so says every layout, by whatever name it is asked for.
-/

namespace Spriting.Sprite

open Files Image Layout

variable {load : Loader} {padding : Int} {paths paths' : List String}
  {images images' : List (String × Raster)}

/-- What is loaded is the image that each name stands for. -/
theorem mem_of_loadAll (h : loadAll load paths = .ok images) {p : String × Raster} :
    p ∈ images ↔ p.1 ∈ paths ∧ load p.1 = .ok p.2 := by
  obtain ⟨hpaths, hloaded⟩ := loadAll_paths h
  constructor
  · intro hp
    exact ⟨hpaths ▸ List.mem_map_of_mem hp, hloaded p hp⟩
  · rintro ⟨hmem, hload⟩
    obtain ⟨q, hq, he⟩ := List.mem_map.1 (hpaths.symm ▸ hmem)
    have hsnd : q.2 = p.2 := by
      have := hloaded q hq
      rw [he, hload] at this
      exact (Except.ok.inj this).symm
    exact Prod.ext he hsnd ▸ hq

theorem nodup_of_loadAll (h : loadAll load paths.eraseDups = .ok images) : images.Nodup := by
  have hpaths : (images.map Prod.fst).Nodup := (loadAll_paths h).1 ▸ nodup_eraseDups paths
  exact List.Pairwise.of_map Prod.fst (fun _ _ hne he => hne (congrArg Prod.fst he)) hpaths

/-- The same names in whatever order stand for the same images. -/
theorem loadAll_reordered (hsame : ∀ path, path ∈ paths ↔ path ∈ paths')
    (h : loadAll load paths.eraseDups = .ok images)
    (h' : loadAll load paths'.eraseDups = .ok images') : images.Perm images' := by
  refine (List.perm_ext_iff_of_nodup (nodup_of_loadAll h) (nodup_of_loadAll h')).2 fun p => ?_
  rw [mem_of_loadAll h, mem_of_loadAll h', List.mem_eraseDups, List.mem_eraseDups, hsame]

theorem sheetSize_congr {items items' : List Item} (h : extent items = extent items') :
    sheetSize padding items = sheetSize padding items' := by
  simp only [sheetSize, h]

/-- Names in whatever order come to a sheet of one size. -/
theorem pack_reordered (library : Library) (algorithm : Algorithm) (hpad : 0 ≤ padding)
    (hne : paths ≠ []) (hload : ∀ path ∈ paths, ∃ image, load path = .ok image) :
    ∃ width height, ∀ paths', (∀ path, path ∈ paths' ↔ path ∈ paths) →
      ∃ plan : Plan, plan.width = width ∧ plan.height = height ∧
        ComesTo library (pack load padding algorithm paths' library) plan := by
  have loaded {paths' : List String} (hsame : ∀ path, path ∈ paths' ↔ path ∈ paths) :
      ∃ images, loadAll load paths'.eraseDups = .ok images :=
    loadAll_isOk fun path hp => hload path ((hsame path).1 (List.mem_eraseDups.1 hp))
  obtain ⟨images, himages⟩ := loaded fun _ => Iff.rfl
  obtain ⟨items, harr, -⟩ := arrange_answers algorithm (itemsOf_sized hpad images)
  refine ⟨(sheetSize padding items).1, (sheetSize padding items).2, ?_⟩
  intro paths' hsame
  obtain ⟨images', himages'⟩ := loaded hsame
  have hne' : paths' ≠ [] := by
    obtain ⟨path, hp⟩ := List.exists_mem_of_ne_nil paths hne
    exact List.ne_nil_of_mem ((hsame path).2 hp)
  obtain ⟨items', harr', hans'⟩ := arrange_answers algorithm (itemsOf_sized hpad images')
  have size : sheetSize padding items' = sheetSize padding items := by
    have perm : images'.Perm images := loadAll_reordered hsame himages' himages
    obtain ⟨placed', placed, hp', hp, hext, -⟩ :=
      arrange_reordered algorithm (perm.map _) (itemsOf_sized hpad images')
    rw [harr'] at hp'
    rw [harr] at hp
    cases hp'
    cases hp
    exact sheetSize_congr hext
  exact ⟨planOf padding images' items', congrArg Prod.fst size, congrArg Prod.snd size,
    pack_of_answers hne' himages' harr' hans'.within⟩

/-- **The size of a layout does not depend on the order of its items.** Any layout gives items
of sizes that are not negative places in which they span the same canvas as in another order,
and a packing tree gives them the same boxes.  So images come to a sheet of one size in whatever
order they are named, and however often, and every sheet that is answered has it. -/
theorem packNamed_reordered (algorithm : Algorithm) :
    (∀ items items' : List Item, items.Perm items' → (∀ i ∈ items, i.Sized) →
      ∃ placed placed', arrangeNamed algorithm.name items = .ok placed ∧
        arrangeNamed algorithm.name items' = .ok placed' ∧ extent placed = extent placed' ∧
        (algorithm = .binaryTree → (placed.map Item.box).Perm (placed'.map Item.box))) ∧
    ∀ (library : Library) (load : Loader) (padding : Int) (paths : List String), 0 ≤ padding →
      paths ≠ [] → (∀ path ∈ paths, ∃ image, load path = .ok image) →
      ∃ width height, ∀ paths', (∀ path, path ∈ paths' ↔ path ∈ paths) →
        (∃ plan : Plan, plan.width = width ∧ plan.height = height ∧
          ComesTo library (packNamed load padding algorithm.name paths' library) plan) ∧
        ∀ file, packNamed load padding algorithm.name paths' library = .ok file →
          file.image.width = width ∧ file.image.height = height := by
  rw [arrangeNamed_name]
  refine ⟨fun items items' h hs => arrange_reordered algorithm h hs, ?_⟩
  intro library load padding paths hpad hne hload
  obtain ⟨width, height, packs⟩ := pack_reordered library algorithm hpad hne hload
  refine ⟨width, height, fun paths' hsame => ?_⟩
  obtain ⟨plan, hwidth, hheight, comes⟩ := packs paths' hsame
  rw [packNamed_name]
  refine ⟨⟨plan, hwidth, hheight, comes⟩, fun file hfile => ?_⟩
  rw [comes.sheet_eq hfile]
  exact ⟨hwidth, hheight⟩

/-- Two items of one size change places, and an image is named twice. -/
theorem packNamed_reordered_ties :
    let a : Item := ⟨"a", 1, 3, 0, 0⟩
    let b : Item := ⟨"b", 1, 3, 0, 0⟩
    let c : Item := ⟨"c", 3, 1, 5, 5⟩
    let paths := ["/a.png", "/b.png"]
    let paths' := ["/b.png", "/a.png", "/b.png"]
    [a, c, b].Perm [b, a, c] ∧ (∀ i ∈ [a, c, b], i.Sized) ∧
    (∃ placed placed', arrangeNamed "binary-tree" [a, c, b] = .ok placed ∧
      arrangeNamed "binary-tree" [b, a, c] = .ok placed' ∧ extent placed = extent placed' ∧
      (placed.map Item.box).Perm (placed'.map Item.box)) ∧
    (0 : Int) ≤ 2 ∧ paths ≠ [] ∧ (∀ path ∈ paths, ∃ image, dots path = .ok image) ∧
    ∃ file file', packNamed dots 2 "left-right" paths = .ok file ∧
      packNamed dots 2 "left-right" paths' = .ok file' ∧
      file.image.width = file'.image.width ∧ file.image.height = file'.image.height := by
  intro a b c paths paths'
  have perm : [a, c, b].Perm [b, a, c] := by decide
  have sized : ∀ i ∈ [a, c, b], i.Sized := by decide
  obtain ⟨placed, placed', hp, hp', hext, hboxes⟩ :=
    (packNamed_reordered .binaryTree).1 _ _ perm sized
  have hload : ∀ path ∈ paths, ∃ image, dots path = .ok image := fun _ _ => ⟨_, rfl⟩
  obtain ⟨width, height, packs⟩ :=
    (packNamed_reordered .leftRight).2 .oneWay dots 2 paths (by decide) (by decide) hload
  have same : ∀ path, path ∈ paths' ↔ path ∈ paths := by simp [paths, paths', or_comm]
  obtain ⟨file, hfile⟩ : ∃ file, packNamed dots 2 "left-right" paths = .ok file :=
    ⟨_, packNamed_dots 2 (by decide) rfl⟩
  obtain ⟨file', hfile'⟩ : ∃ file, packNamed dots 2 "left-right" paths' = .ok file :=
    ⟨_, packNamed_dots 2 (by decide) rfl⟩
  obtain ⟨hwidth, hheight⟩ := (packs paths fun _ => Iff.rfl).2 file hfile
  obtain ⟨hwidth', hheight'⟩ := (packs paths' same).2 file' hfile'
  exact ⟨perm, sized, ⟨placed, placed', hp, hp', hext, hboxes rfl⟩, by decide, by decide, hload,
    file, file', hfile, hfile', hwidth.trans hwidth'.symm, hheight.trans hheight'.symm⟩

end Spriting.Sprite

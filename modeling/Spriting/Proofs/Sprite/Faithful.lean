import Spriting.Sprite.Pack
import Spriting.Proofs.Image.Composition
import Spriting.Proofs.Layout.Arrangement

/-!
# Sprite sheets show their images

A sheet is faithful to the images that it was asked for if it has one box for
each of them, the box shows every pixel of the image, and nothing shows outside
the boxes.

* `pack_plans`, `pack_of_loads`: images that can be loaded come to a faithful sheet, which is
  left to the library to draw and to write;
* `faithful_of_pack`: whatever sheet is made is faithful.
-/

namespace Spriting.Sprite

open Files Image Layout

/-! ## Loading -/

theorem loadAll_paths {load : Loader} {paths : List String} {images : List (String × Raster)}
    (h : loadAll load paths = .ok images) :
    images.map Prod.fst = paths ∧ ∀ p ∈ images, load p.1 = .ok p.2 := by
  induction paths generalizing images with
  | nil =>
    obtain rfl : [] = images := Except.ok.inj h
    simp
  | cons path paths ih =>
    simp only [loadAll] at h
    cases hl : load path with
    | error e => simp [hl] at h
    | ok image =>
      cases hr : loadAll load paths with
      | error e => simp [hl, hr, Except.map] at h
      | ok rest =>
        obtain ⟨hpaths, hload⟩ := ih hr
        simp only [hl, hr, Except.map, Except.ok.injEq] at h
        subst h
        refine ⟨by simp [hpaths], ?_⟩
        intro p hp
        rcases List.mem_cons.1 hp with rfl | hp
        · exact hl
        · exact hload p hp

theorem loadAll_isOk {load : Loader} {paths : List String}
    (h : ∀ path ∈ paths, ∃ image, load path = .ok image) :
    ∃ images, loadAll load paths = .ok images := by
  induction paths with
  | nil => exact ⟨[], rfl⟩
  | cons path paths ih =>
    obtain ⟨image, hl⟩ := h path List.mem_cons_self
    obtain ⟨images, hr⟩ := ih fun p hp => h p (List.mem_cons_of_mem _ hp)
    exact ⟨(path, image) :: images, by simp [loadAll, hl, hr, Except.map]⟩

/-! ## Items and layers of images -/

variable {padding : Int} {images : List (String × Raster)} {items : List Item}

/-- `items` are the items of `images` in the same order, wherever they stand. -/
def ItemsOf (padding : Int) (images : List (String × Raster)) (items : List Item) : Prop :=
  items.map Item.unplaced = images.map fun p => itemOf padding p.1 p.2

theorem itemsOf_sized (hpad : 0 ≤ padding) (images : List (String × Raster)) :
    ∀ i ∈ images.map fun p => itemOf padding p.1 p.2, i.Sized := by
  refine List.forall_mem_map.2 fun p _ => ?_
  constructor <;> simp only [itemOf] <;> omega

theorem itemsOf_of_arrange {algorithm : Algorithm}
    (h : arrange algorithm (images.map fun p => itemOf padding p.1 p.2) = .ok items) :
    ItemsOf padding images items := by
  rw [ItemsOf, arrange_unplaced h, List.map_map]
  rfl

theorem ItemsOf.length_eq (h : ItemsOf padding images items) : items.length = images.length := by
  simpa using congrArg List.length h

/-- An item is as large as its image with padding. -/
theorem ItemsOf.size {p : (String × Raster) × Item} (h : ItemsOf padding images items)
    (hp : p ∈ images.zip items) :
    p.2.width = p.1.2.width + padding ∧ p.2.height = p.1.2.height + padding := by
  have same : p.2.unplaced = itemOf padding p.1.1 p.1.2 := by
    unfold ItemsOf at h
    induction images generalizing items with
    | nil => simp at hp
    | cons q images ih =>
      cases items with
      | nil => simp at hp
      | cons i items =>
        obtain ⟨hi, hrest⟩ := List.cons_eq_cons.1 h
        rcases List.mem_cons.1 hp with rfl | hp
        · exact hi
        · exact ih hrest hp
  exact ⟨congrArg Item.width same, congrArg Item.height same⟩

/-- An image and its item make a layer. -/
def layerOf (p : (String × Raster) × Item) : Layer := ⟨p.1.2, p.2.x, p.2.y⟩

theorem layersOf_eq : layersOf images items = (images.zip items).map layerOf := rfl

theorem layerOf_within {p : (String × Raster) × Item} (hpad : 0 ≤ padding)
    (h : ItemsOf padding images items) (hp : p ∈ images.zip items) :
    (layerOf p).box.Within p.2.box := by
  obtain ⟨hw, hh⟩ := h.size hp
  constructor <;> simp only [layerOf, Layer.box, Item.box] <;> omega

theorem ItemsOf.zip_items (h : ItemsOf padding images items) :
    (images.zip items).map Prod.snd = items :=
  List.map_snd_zip (Nat.le_of_eq h.length_eq)

theorem ItemsOf.zip_apart (h : ItemsOf padding images items) (ha : ItemsApart items) :
    (images.zip items).Pairwise fun p q => p.2.box.Apart q.2.box := by
  rw [← h.zip_items, ItemsApart, List.pairwise_map] at ha
  exact ha

theorem layersOf_apart (hpad : 0 ≤ padding) (h : ItemsOf padding images items)
    (ha : ItemsApart items) : (layersOf images items).Pairwise Layer.Apart := by
  rw [layersOf_eq, List.pairwise_map]
  refine (h.zip_apart ha).imp_of_mem ?_
  intro p q hp hq hpq
  exact hpq.of_within (layerOf_within hpad h hp) (layerOf_within hpad h hq)

/-- Without the padding at its edges the canvas still holds every image. -/
theorem layerOf_within_sheet {p : (String × Raster) × Item}
    (h : ItemsOf padding images items) (hw : ∀ i ∈ items, i.box.Within (canvas items))
    (hp : p ∈ images.zip items) :
    (layerOf p).box.Within
      ⟨0, 0, (sheetSize padding items).1, (sheetSize padding items).2⟩ := by
  obtain ⟨hsw, hsh⟩ := h.size hp
  obtain ⟨hl, ht, hr, hb⟩ := hw p.2 (List.of_mem_zip hp).2
  simp only [canvas, Item.box] at hl ht hr hb
  constructor <;> simp only [layerOf, Layer.box, sheetSize] <;> omega

/-! ## The sheet -/

/-- The canvas of a sheet. -/
def SpriteSheet.canvas (sheet : SpriteSheet) : Box := ⟨0, 0, sheet.image.width, sheet.image.height⟩

/-- The sheet shows `image` in `box`: the box has its size and lies in the canvas, and
there every pixel of the image stands at its place. -/
structure SpriteSheet.Shows (sheet : SpriteSheet) (box : Box) (image : Raster) : Prop where
  width : box.width = image.width
  height : box.height = image.height
  within : box.Within sheet.canvas
  pixel : ∀ i j, i < image.width → j < image.height →
    sheet.image.pixel (box.x.toNat + i) (box.y.toNat + j) = image.pixel i j

/-- The pixel in column `x` and row `y` lies in `box`. -/
def Covers (box : Box) (x y : Nat) : Prop :=
  (box.x ≤ x ∧ x < box.x + box.width) ∧ box.y ≤ y ∧ y < box.y + box.height

/-- The sheet has one box for every path, shows the loaded image in it, and shows
nothing outside the boxes. -/
structure Faithful (load : Loader) (paths : List String) (sheet : SpriteSheet) : Prop where
  distinct : (sheet.placements.map Prod.fst).Nodup
  keys : ∀ path, path ∈ sheet.placements.map Prod.fst ↔ path ∈ paths
  shows : ∀ p ∈ sheet.placements, ∃ image, load p.1 = .ok image ∧ sheet.Shows p.2 image
  clear : ∀ x y, x < sheet.image.width → y < sheet.image.height →
    (∀ p ∈ sheet.placements, ¬ Covers p.2 x y) → sheet.image.pixel x y = .clear

/-- The box of an image and its item. -/
def placementOf (p : (String × Raster) × Item) : String × Box := (p.1.1, (layerOf p).box)

theorem plan_placements :
    (planOf padding images items).sheet.placements = (images.zip items).map placementOf := rfl

theorem plan_image :
    (planOf padding images items).sheet.image =
      compose (sheetSize padding items).1 (sheetSize padding items).2 (layersOf images items) := rfl

theorem plan_canvas :
    (planOf padding images items).sheet.canvas =
      ⟨0, 0, (sheetSize padding items).1, (sheetSize padding items).2⟩ := rfl

theorem covers_placementOf {p : (String × Raster) × Item} {x y : Nat} :
    Covers (placementOf p).2 x y ↔ (layerOf p).covers x y = true := Layer.covers_iff.symm

theorem plan_shows {p : (String × Raster) × Item} (hpad : 0 ≤ padding)
    (h : ItemsOf padding images items) (ha : ItemsApart items)
    (hw : ∀ i ∈ items, i.box.Within (canvas items)) (hp : p ∈ images.zip items) :
    (planOf padding images items).sheet.Shows (placementOf p).2 p.1.2 := by
  have within := layerOf_within_sheet h hw hp
  refine ⟨rfl, rfl, plan_canvas ▸ within, ?_⟩
  intro i j hi hj
  obtain ⟨hl, ht, hr, hb⟩ := within
  simp only [layerOf, Layer.box] at hl ht hr hb
  have hcov : (layerOf p).covers (p.2.x.toNat + i) (p.2.y.toNat + j) = true := by
    rw [Layer.covers_iff]
    simp only [layerOf]
    omega
  have hmem : layerOf p ∈ layersOf images items := List.mem_map_of_mem hp
  have hrow : p.2.y.toNat + j < (sheetSize padding items).2 := by omega
  rw [plan_image]
  refine (compose_of_covers (layersOf_apart hpad h ha) hmem hcov hrow).trans ?_
  simp only [Layer.pixel, layerOf]
  congr 1 <;> omega

/-- A sheet has a box for every image. -/
theorem plan_paths (h : ItemsOf padding images items) :
    (planOf padding images items).sheet.placements.map Prod.fst = images.map Prod.fst := by
  have hfst : (images.zip items).map Prod.fst = images :=
    List.map_fst_zip (Nat.le_of_eq h.length_eq.symm)
  calc (planOf padding images items).sheet.placements.map Prod.fst
      = ((images.zip items).map Prod.fst).map Prod.fst := by
        rw [plan_placements, List.map_map, List.map_map]
        rfl
    _ = images.map Prod.fst := by rw [hfst]

theorem plan_faithful {load : Loader} {paths : List String} (hpad : 0 ≤ padding)
    (hload : loadAll load paths.eraseDups = .ok images) (h : ItemsOf padding images items)
    (ha : ItemsApart items) (hw : ∀ i ∈ items, i.box.Within (canvas items)) :
    Faithful load paths (planOf padding images items).sheet := by
  obtain ⟨hpaths, hloaded⟩ := loadAll_paths hload
  have hkeys : (planOf padding images items).sheet.placements.map Prod.fst = paths.eraseDups :=
    (plan_paths h).trans hpaths
  refine ⟨hkeys ▸ nodup_eraseDups paths, ?_, ?_, ?_⟩
  · intro path
    rw [hkeys, List.mem_eraseDups]
  · intro q hq
    obtain ⟨p, hp, rfl⟩ := List.mem_map.1 hq
    exact ⟨p.1.2, hloaded p.1 (List.of_mem_zip hp).1, plan_shows hpad h ha hw hp⟩
  · intro x y hx hy hn
    apply compose_of_bare _ hy
    intro l hl
    obtain ⟨p, hp, rfl⟩ := List.mem_map.1 hl
    exact Bool.eq_false_iff.2 fun hc => hn _ (List.mem_map_of_mem hp) (covers_placementOf.2 hc)

/-! ## Packing -/

section
variable {library : Library} {plan : Plan}

/-- A plan is carried out exactly if its canvas can be made and its sheet can be written. -/
theorem Plan.carryOut_eq_ok {file : SpriteFile} : plan.carryOut library = .ok file ↔
    library.canvas plan.width plan.height plan.layers = .ok () ∧
      library.encode plan.sheet.image = .ok file.content ∧ file.toSpriteSheet = plan.sheet := by
  cases hcanvas : library.canvas plan.width plan.height plan.layers with
  | error cause => simp [carryOut, hcanvas, Except.mapError, bind, Except.bind]
  | ok u =>
    cases hencode : library.encode plan.sheet.image with
    | error cause => simp [carryOut, hcanvas, hencode, Except.mapError, bind, Except.bind]
    | ok content =>
      have carried : plan.carryOut library = .ok { plan.sheet with content } := by
        simp [carryOut, hcanvas, hencode, Except.mapError, bind, Except.bind, pure, Except.pure]
      rw [carried]
      constructor
      · intro h
        cases h
        exact ⟨rfl, rfl, rfl⟩
      · rintro ⟨-, hcontent, hsheet⟩
        cases hcontent
        rw [← hsheet]

/-- What keeps a plan from being carried out. -/
theorem Plan.carryOut_eq_error {e : PackError} : plan.carryOut library = .error e ↔
    (∃ cause, library.canvas plan.width plan.height plan.layers = .error cause ∧
      e = .canvas cause) ∨
    library.canvas plan.width plan.height plan.layers = .ok () ∧
      ∃ cause, library.encode plan.sheet.image = .error cause ∧
        e = .encode plan.width plan.height cause := by
  cases hcanvas : library.canvas plan.width plan.height plan.layers with
  | error cause => simp [carryOut, hcanvas, Except.mapError, bind, Except.bind, eq_comm]
  | ok u =>
    cases hencode : library.encode plan.sheet.image <;>
      simp [carryOut, hcanvas, hencode, Except.mapError, bind, Except.bind, pure, Except.pure,
        eq_comm]

/-- Packing has come to `plan`: what is answered is the sheet that is planned, as the library
writes it, unless the library cannot make the canvas with the layers on it or write the sheet. -/
structure ComesTo (library : Library) (result : Except PackError SpriteFile) (plan : Plan) :
    Prop where
  file : ∀ file, result = .ok file ↔
    library.canvas plan.width plan.height plan.layers = .ok () ∧
      library.encode plan.sheet.image = .ok file.content ∧ file.toSpriteSheet = plan.sheet
  failure : ∀ e, result = .error e ↔
    (∃ cause, library.canvas plan.width plan.height plan.layers = .error cause ∧
      e = .canvas cause) ∨
    library.canvas plan.width plan.height plan.layers = .ok () ∧
      ∃ cause, library.encode plan.sheet.image = .error cause ∧
        e = .encode plan.width plan.height cause
  /-- If layers that lie in a canvas never matter, only its size can. -/
  refused : library.Roomy → ∀ cause, result = .error (.canvas cause) ↔
    library.canvas plan.width plan.height [] = .error cause

theorem Plan.comesTo (library : Library) (h : ∀ l ∈ plan.layers, l.box.Within plan.sheet.canvas) :
    ComesTo library (plan.carryOut library) plan := by
  refine ⟨fun _ => carryOut_eq_ok, fun _ => carryOut_eq_error, ?_⟩
  intro roomy cause
  rw [carryOut_eq_error, roomy plan.width plan.height plan.layers h]
  simp

theorem ComesTo.sheet_eq {result : Except PackError SpriteFile} {file : SpriteFile}
    (h : ComesTo library result plan) (hfile : result = .ok file) :
    file.toSpriteSheet = plan.sheet := ((h.file file).1 hfile).2.2

end

variable {load : Loader} {paths : List String} {library : Library}

/-- Images that have been loaded and laid out are planned. -/
theorem packWith_of_arrange {layout : List Item → Except LayoutError (List Item)}
    (hne : paths ≠ []) (himages : loadAll load paths.eraseDups = .ok images)
    (hitems : layout (images.map fun p => itemOf padding p.1 p.2) = .ok items) :
    packWith load padding layout paths library =
      (planOf padding images items).carryOut library := by
  unfold packWith
  rw [if_neg hne, himages]
  change Except.bind ((layout _).mapError _) _ = _
  rw [hitems]
  rfl

/-- Where all images lie on the sheet, packing comes to their plan. -/
theorem pack_of_answers {algorithm : Algorithm} (hne : paths ≠ [])
    (himages : loadAll load paths.eraseDups = .ok images)
    (harr : arrange algorithm (images.map fun p => itemOf padding p.1 p.2) = .ok items)
    (hw : ∀ i ∈ items, i.box.Within (canvas items)) :
    ComesTo library (pack load padding algorithm paths library) (planOf padding images items) := by
  rw [pack, packWith_of_arrange hne himages harr]
  apply Plan.comesTo
  intro l hl
  obtain ⟨p, hp, rfl⟩ := List.mem_map.1 hl
  exact layerOf_within_sheet (itemsOf_of_arrange harr) hw hp

/-- Images that can be loaded find places that are apart, and packing comes to their plan. -/
theorem pack_plans (library : Library) (algorithm : Algorithm) (hpad : 0 ≤ padding)
    (hne : paths ≠ []) (hload : ∀ path ∈ paths, ∃ image, load path = .ok image) :
    ∃ images items, loadAll load paths.eraseDups = .ok images ∧ ItemsOf padding images items ∧
      ItemsApart items ∧ (∀ i ∈ items, i.box.Within (canvas items)) ∧
      ComesTo library (pack load padding algorithm paths library)
        (planOf padding images items) := by
  have hload' : ∀ path ∈ paths.eraseDups, ∃ image, load path = .ok image :=
    fun path hp => hload path (List.mem_eraseDups.1 hp)
  obtain ⟨images, himages⟩ := loadAll_isOk hload'
  obtain ⟨items, harr, hans⟩ := arrange_answers algorithm (itemsOf_sized hpad images)
  exact ⟨images, items, himages, itemsOf_of_arrange harr, hans.apart, hans.within,
    pack_of_answers hne himages harr hans.within⟩

/-- Images that can be loaded come to a faithful sheet. -/
theorem pack_of_loads (library : Library) (algorithm : Algorithm) (hpad : 0 ≤ padding)
    (hne : paths ≠ []) (hload : ∀ path ∈ paths, ∃ image, load path = .ok image) :
    ∃ plan, Faithful load paths plan.sheet ∧
      ComesTo library (pack load padding algorithm paths library) plan := by
  obtain ⟨images, items, himages, h, ha, hw, hpack⟩ :=
    pack_plans library algorithm hpad hne hload
  exact ⟨planOf padding images items, plan_faithful hpad himages h ha hw, hpack⟩

/-- What a sheet that has been made is made of. -/
theorem packWith_eq_ok {layout : List Item → Except LayoutError (List Item)} {file : SpriteFile}
    (h : packWith load padding layout paths library = .ok file) :
    paths ≠ [] ∧ ∃ images items, loadAll load paths.eraseDups = .ok images ∧
      layout (images.map fun p => itemOf padding p.1 p.2) = .ok items ∧
      (planOf padding images items).carryOut library = .ok file := by
  by_cases hne : paths = []
  · rw [packWith, if_pos hne] at h
    cases h
  · refine ⟨hne, ?_⟩
    cases himages : loadAll load paths.eraseDups with
    | error e =>
      rw [packWith, if_neg hne, himages] at h
      cases h
    | ok images =>
      cases hitems : layout (images.map fun p => itemOf padding p.1 p.2) with
      | error e =>
        rw [packWith, if_neg hne, himages] at h
        change Except.bind ((layout _).mapError _) _ = _ at h
        rw [hitems] at h
        cases h
      | ok items =>
        rw [packWith_of_arrange hne himages hitems] at h
        exact ⟨images, items, rfl, hitems, h⟩

section
variable {algorithm : Algorithm} {file : SpriteFile}

/-- No sheet is made of no images, or where an image cannot be loaded. -/
theorem loads_of_pack (h : pack load padding algorithm paths library = .ok file) :
    paths ≠ [] ∧ ∀ path ∈ paths, ∃ image, load path = .ok image := by
  obtain ⟨hne, images, items, himages, -, -⟩ := packWith_eq_ok h
  obtain ⟨hpaths, hloaded⟩ := loadAll_paths himages
  refine ⟨hne, ?_⟩
  intro path hp
  rw [← List.mem_eraseDups, ← hpaths] at hp
  obtain ⟨p, hmem, rfl⟩ := List.mem_map.1 hp
  exact ⟨p.2, hloaded p hmem⟩

/-- A sheet has one box for every path, whatever its padding. -/
theorem paths_of_pack (h : pack load padding algorithm paths library = .ok file) :
    file.placements.map Prod.fst = paths.eraseDups := by
  obtain ⟨-, images, items, himages, hitems, hfile⟩ := packWith_eq_ok h
  rw [(Plan.carryOut_eq_ok.1 hfile).2.2, plan_paths (itemsOf_of_arrange hitems)]
  exact (loadAll_paths himages).1

/-- A sheet is the image that its file holds, for the library. -/
theorem encode_of_pack (h : pack load padding algorithm paths library = .ok file) :
    library.encode file.image = .ok file.content := by
  obtain ⟨-, images, items, -, -, hfile⟩ := packWith_eq_ok h
  obtain ⟨-, hcontent, hsheet⟩ := Plan.carryOut_eq_ok.1 hfile
  exact hsheet ▸ hcontent

theorem faithful_of_pack (hpad : 0 ≤ padding)
    (h : pack load padding algorithm paths library = .ok file) :
    Faithful load paths file.toSpriteSheet := by
  obtain ⟨hne, hload⟩ := loads_of_pack h
  obtain ⟨plan, hf, hpack⟩ := pack_of_loads library algorithm hpad hne hload
  rw [hpack.sheet_eq h]
  exact hf

end

theorem packNamed_name (load : Loader) (padding : Int) (algorithm : Algorithm)
    (paths : List String) (library : Library) :
    packNamed load padding algorithm.name paths library =
      pack load padding algorithm paths library := by
  rw [packNamed, arrangeNamed_name, pack]

/-- **Composition is faithful.** Images that can be loaded are packed by every layout into a sheet
that has one box for each path, of the size of its image and inside the canvas, that shows every
image pixel by pixel in its box, and that is clear outside the boxes.  What is answered is this
sheet and what the library writes for it.  Only the library can fail, to make the canvas with the
images on it or to write the sheet. -/
theorem packNamed_faithful (library : Library) (load : Loader) (algorithm : Algorithm)
    {padding : Int} {paths : List String} (hpad : 0 ≤ padding) (hne : paths ≠ [])
    (hload : ∀ path ∈ paths, ∃ image, load path = .ok image) :
    ∃ plan, Faithful load paths plan.sheet ∧
      ComesTo library (packNamed load padding algorithm.name paths library) plan := by
  rw [packNamed_name]
  exact pack_of_loads library algorithm hpad hne hload

def dot : Raster := { width := 1, height := 1, pixel := fun _ _ => ⟨1, 2, 3, 4⟩ }

/-- A loader that finds a single dot under every name. -/
def dots : Loader := fun _ => .ok dot

/-- A dot with padding, in a row. -/
def dotItem (side : Int) (path : String) (x : Int) : Item :=
  { key := path, width := side, height := side, x := x, y := 0 }

theorem arrangeNamed_dots (side : Int) (a b : String) :
    arrangeNamed "left-right" [dotItem side a 0, dotItem side b 0] =
      .ok [dotItem side a 0, dotItem side b side] := by
  have taken : [(dotItem side a 0, 0), (dotItem side b 0, 1)].mergeSort
      (fun i j => Algorithm.leftRight.before i.1 j.1) =
        [(dotItem side a 0, 0), (dotItem side b 0, 1)] :=
    List.mergeSort_of_pairwise (by simp [Algorithm.before, narrowerFirst, dotItem])
  have placed : [(dotItem side a 0, 0), (dotItem side b (0 + side), 1)].mergeSort
      (fun i j => i.2 ≤ j.2) = [(dotItem side a 0, 0), (dotItem side b (0 + side), 1)] :=
    List.mergeSort_of_pairwise (by simp)
  change arrange .leftRight _ = _
  simp only [arrange, List.zipIdx_cons, List.zipIdx_nil, Nat.zero_add, taken]
  calc _ = .ok [dotItem side a 0, dotItem side b (0 + side)] :=
        congrArg (fun l => Except.ok (List.map Prod.fst l)) placed
    _ = _ := by rw [Int.zero_add]

/-- Two dots are planned in a row, however often they are named. -/
theorem packNamed_dots (padding : Int) {paths : List String} {a b : String} (hne : paths ≠ [])
    (h : paths.eraseDups = [a, b]) :
    packNamed dots padding "left-right" paths =
      (planOf padding [(a, dot), (b, dot)]
        [dotItem (1 + padding) a 0, dotItem (1 + padding) b (1 + padding)]).carryOut .oneWay := by
  rw [packNamed]
  exact packWith_of_arrange hne (by rw [h]; rfl) (arrangeNamed_dots (1 + padding) a b)

/-- A path that is named twice has one box on a sheet that is drawn and written. -/
theorem packNamed_faithful_repeated :
    let paths := ["/a.png", "/b.png", "/a.png"]
    (0 : Int) ≤ 3 ∧ paths ≠ [] ∧ (∀ path ∈ paths, ∃ image, dots path = .ok image) ∧
    Library.oneWay.Roomy ∧
    ∃ file, packNamed dots 3 Algorithm.leftRight.name paths = .ok file ∧
      Faithful dots paths file.toSpriteSheet ∧ file.content = file.image.encode := by
  intro paths
  have hload : ∀ path ∈ paths, ∃ image, dots path = .ok image := fun _ _ => ⟨_, rfl⟩
  obtain ⟨file, hfile⟩ : ∃ file, packNamed dots 3 Algorithm.leftRight.name paths = .ok file :=
    ⟨_, packNamed_dots 3 (by decide) rfl⟩
  obtain ⟨plan, faithful, comes⟩ :=
    packNamed_faithful .oneWay dots .leftRight (by decide : (0 : Int) ≤ 3) (by decide) hload
  obtain ⟨-, hcontent, hsheet⟩ := (comes.file file).1 hfile
  exact ⟨by decide, by decide, hload, Library.oneWay_roomy, file, hfile, hsheet ▸ faithful,
    hsheet ▸ (Except.ok.inj hcontent).symm⟩

/-- Padding that makes the row wider than a canvas can be leaves images without a sheet
although all of them can be loaded. -/
theorem packNamed_canvas_too_wide :
    (0 : Int) ≤ 536870909 ∧ ["/a.png", "/b.png"] ≠ [] ∧
    (∀ path ∈ ["/a.png", "/b.png"], ∃ image, dots path = .ok image) ∧
    ¬ ∃ file, packNamed dots 536870909 "left-right" ["/a.png", "/b.png"] = .ok file := by
  have refused : packNamed dots 536870909 "left-right" ["/a.png", "/b.png"] =
      .error (.canvas .noMemory) :=
    (packNamed_dots 536870909 (by decide) rfl).trans rfl
  refine ⟨by decide, by decide, fun _ _ => ⟨_, rfl⟩, ?_⟩
  rintro ⟨file, h⟩
  rw [refused] at h
  cases h

end Spriting.Sprite

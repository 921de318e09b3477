import Spriting.Proofs.Sprite.Faithful

/-!
# Images that cannot be loaded

Images are loaded in the order in which they are first named, and loading stops at the first
that there is none of, before anything is laid out.  Why there is none is told by the loader;
packing reports it if it is an error of the operating system, and else lets it go on.

* `loadAll_stops`: the failure names the first such path, whatever comes behind it;
* `loadImage_not_system`: which files fail with another error;
* `packNamed_answers`: what packing answers for every list of paths.
-/

namespace Spriting.Sprite

open Files Image Layout

variable {load : Loader} {path : String} {before after paths : List String} {cause : LoadError}
  {library : Library}

/-! ## The first image that is missing -/

theorem loadAll_stops (hbefore : ∀ p ∈ before, ∃ image, load p = .ok image)
    (hpath : load path = .error cause) (after : List String) :
    loadAll load (before ++ path :: after) = .error (.unreadable path cause) := by
  induction before with
  | nil => simp [loadAll, hpath]
  | cons p before ih =>
    obtain ⟨image, hp⟩ := hbefore p List.mem_cons_self
    have hrest := ih fun q hq => hbefore q (List.mem_cons_of_mem _ hq)
    simp [loadAll, hp, hrest, Except.map]

/-- To name a path again before one that is new does not bring it forward. -/
theorem eraseDups_append_cons (h : path ∉ before) (after : List String) :
    ∃ rest, (before ++ path :: after).eraseDups = before.eraseDups ++ path :: rest := by
  rw [List.eraseDups_append, List.removeAll, List.filter_cons_of_pos (by simpa using h),
    List.eraseDups_cons]
  exact ⟨_, rfl⟩

theorem packWith_stops {padding : Int} {layout : List Item → Except LayoutError (List Item)}
    (hbefore : ∀ p ∈ before, ∃ image, load p = .ok image) (hpath : load path = .error cause)
    (after : List String) :
    packWith load padding layout (before ++ path :: after) library =
      .error (.unreadable path cause) := by
  have hnew : path ∉ before := by
    intro hmem
    obtain ⟨image, hok⟩ := hbefore path hmem
    rw [hpath] at hok
    cases hok
  obtain ⟨rest, herase⟩ := eraseDups_append_cons hnew after
  have hstop := loadAll_stops (fun p hp => hbefore p (List.mem_eraseDups.1 hp)) hpath rest
  rw [packWith, if_neg (by simp), herase, hstop]
  rfl

/-! ## Errors of another kind -/

/-- An image of a tree fails with an error that is none of the operating system if its path ends
for the system before it ends, or if that is how the library fails to read its file. -/
theorem loadImage_not_system {t : FileTree} {work : Place}
    (h : t.loadImage work library path = .error cause) :
    cause.isSystem = false ↔ holdsNul path = true ∨
      ∃ place bytes f, t.find work path = .ok (place, .data bytes) ∧
        library.decode path bytes = .error f ∧ f.kind ≠ .system := by
  unfold FileTree.loadImage at h
  by_cases hnul : holdsNul path = true
  · rw [if_pos hnul] at h
    cases h
    simp [LoadError.isSystem, hnul]
  · rw [if_neg hnul] at h
    cases hfind : t.find work path with
    | error e =>
      rw [hfind] at h
      cases h
      simp [LoadError.isSystem, hnul]
    | ok found =>
      obtain ⟨place, entry⟩ := found
      rw [hfind] at h
      cases entry with
      | directory =>
        cases h
        simp [LoadError.isSystem, hnul]
      | data bytes =>
        cases hdecode : library.decode path bytes with
        | ok image =>
          simp only [hdecode] at h
          cases h
        | error f =>
          simp only [hdecode] at h
          cases h
          simp [LoadError.isSystem, hnul, hdecode]
      | image raster => cases h

/-! ## What packing answers -/

/-- Images that can be loaded come to a sheet, unless there is no such layout. -/
theorem packNamed_of_loads {padding : Int} (library : Library) (algorithm : String)
    (hpad : 0 ≤ padding) (hne : paths ≠ [])
    (hload : ∀ path ∈ paths, ∃ image, load path = .ok image) :
    (Algorithm.ofName? algorithm = none ∧
      packNamed load padding algorithm paths library =
        .error (.layout (.unknownAlgorithm algorithm))) ∨
    ∃ plan, Faithful load paths plan.sheet ∧
      ComesTo library (packNamed load padding algorithm paths library) plan := by
  cases hname : Algorithm.ofName? algorithm with
  | some known =>
    have harrange : arrangeNamed algorithm = arrange known := by
      funext items
      rw [arrangeNamed, hname]
    rw [packNamed, harrange]
    exact .inr (pack_of_loads library known hpad hne hload)
  | none =>
    obtain ⟨images, himages⟩ :=
      loadAll_isOk fun path hp => hload path (List.mem_eraseDups.1 hp)
    refine .inl ⟨rfl, ?_⟩
    rw [packNamed, packWith, if_neg hne, himages]
    change Except.bind ((arrangeNamed algorithm _).mapError _) _ = _
    rw [arrangeNamed, hname]
    rfl

/-- Whether there is no image at a path. -/
def Loader.fails (load : Loader) (path : String) : Bool := !(load path).isOk

theorem fails_eq_true : load.fails path = true ↔ ∃ cause, load path = .error cause := by
  unfold Loader.fails
  cases load path <;> simp [Except.isOk, Except.toBool]

theorem fails_eq_false : load.fails path = false ↔ ∃ image, load path = .ok image := by
  unfold Loader.fails
  cases load path <;> simp [Except.isOk, Except.toBool]

/-- **The first image that cannot be loaded is named.** If paths of the list cannot be loaded,
packing fails with the first of them, whatever the layout and whatever else is wrong, and it
reports the failure, with the path, exactly if it is an error of the operating system.  Otherwise
it reports that there is no layout of this name, or comes to a faithful sheet, and then only the
library can stop it.  In a tree of files what is no error of the operating system is a path that
ends for the system before it ends, or comes from the library. -/
theorem packNamed_answers (library : Library) (load : Loader) (algorithm : String) {padding : Int}
    {paths : List String} (hpad : 0 ≤ padding) (hne : paths ≠ []) :
    (∀ path, paths.find? load.fails = some path →
      ∃ cause, load path = .error cause ∧
        packNamed load padding algorithm paths library = .error (.unreadable path cause) ∧
        (PackError.unreadable path cause).isReported = cause.isSystem ∧
        (PackError.unreadable path cause).path? = if cause.isSystem then some path else none) ∧
    (paths.find? load.fails = none →
      (Algorithm.ofName? algorithm = none ∧
        ∃ e, packNamed load padding algorithm paths library = .error e ∧ e.isReported = true) ∨
      ∃ plan, Faithful load paths plan.sheet ∧
        ComesTo library (packNamed load padding algorithm paths library) plan) ∧
    ∀ (t : FileTree) (work : Place) (path : String) (cause : LoadError),
      t.loadImage work library path = .error cause →
      (cause.isSystem = false ↔ holdsNul path = true ∨
        ∃ place bytes f, t.find work path = .ok (place, .data bytes) ∧
          library.decode path bytes = .error f ∧ f.kind ≠ .system) := by
  refine ⟨?_, ?_, fun t work path cause h => loadImage_not_system h⟩
  · intro path hfirst
    obtain ⟨hfails, before, after, rfl, hbefore⟩ := List.find?_eq_some_iff_append.1 hfirst
    obtain ⟨cause, hpath⟩ := fails_eq_true.1 hfails
    have hloads : ∀ p ∈ before, ∃ image, load p = .ok image :=
      fun p hp => fails_eq_false.1 (by simpa using hbefore p hp)
    exact ⟨cause, hpath, packWith_stops hloads hpath after, rfl, rfl⟩
  · intro hnone
    have hall : ∀ p ∈ paths, ∃ image, load p = .ok image :=
      fun p hp => fails_eq_false.1 (by simpa using List.find?_eq_none.1 hnone p hp)
    rcases packNamed_of_loads library algorithm hpad hne hall with ⟨hname, hpack⟩ | hsheet
    · exact .inl ⟨hname, _, hpack, rfl⟩
    · exact .inr hsheet

/-- A tree with a single image. -/
def dotTree : FileTree := ⟨[(["dot.png"], .image dot)]⟩

/-- Of the paths that cannot be loaded the third one comes first. -/
theorem packNamed_answers_missing :
    let load : Loader := dotTree.loadImage []
    let paths := ["/dot.png", "/dot.png", "/bar.png", "/a\x00.png"]
    (0 : Int) ≤ 20 ∧ paths ≠ [] ∧ paths.find? load.fails = some "/bar.png" ∧
    ∃ e : PackError, packNamed load 20 "binary-tree" paths = .error e ∧
      e.path? = some "/bar.png" ∧ e.isReported = true := by
  intro load paths
  obtain ⟨cause, hcause, hpack, hreported, hpath⟩ :=
    (packNamed_answers .oneWay load "binary-tree" (by decide : (0 : Int) ≤ 20)
      (by decide : paths ≠ [])).1 "/bar.png" rfl
  obtain rfl : cause = .file .missing := Except.error.inj (hcause.symm.trans rfl)
  exact ⟨by decide, by decide, rfl, _, hpack, hpath, hreported⟩

/-- A path that ends for the system before it ends is a failure that nothing reports. -/
theorem packNamed_nul :
    (dotTree.loadImage [] .oneWay "/a\x00.png").isOk = false ∧
    ∃ e : PackError, packNamed (dotTree.loadImage []) 0 "binary-tree" ["/a\x00.png"] = .error e ∧
      e.isReported = false ∧ e.path? = none :=
  ⟨rfl, .unreadable "/a\x00.png" .nul, rfl, rfl, rfl⟩

end Spriting.Sprite

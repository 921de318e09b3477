import Spriting.Files.Tree

/-!
# Making directories

A directory is made only where nothing is yet, so no file is lost or changed on the way,
however far the making of a directory and of those above it comes.  What is made or written
lies where the last name of a path is looked up, in the directory that the names before it
lead to.

* `makeDirectory_eq_ok`, `openFile_eq_ok`: the one place that an operation changes;
* `makeDirectories_grown`: the places at which a directory and those above it are made;
* `store_put`: what becomes of a file that is written, also when the device fails.
-/

namespace Spriting.Files

/-! ## Where paths lead -/

/-- The place that names lead to from `place`. -/
def walk (place : Place) (names : List String) : Place := names.foldl FileTree.stepTo place

@[simp] theorem walk_nil (place : Place) : walk place [] = place := rfl

theorem walk_cons (place : Place) (name : String) (names : List String) :
    walk place (name :: names) = walk (FileTree.stepTo place name) names := rfl

theorem walk_append (place : Place) (names names' : List String) :
    walk place (names ++ names') = walk (walk place names) names' := List.foldl_append

namespace Path

variable {work q : Place} {p p' : Path}

/-- The place that the names of a path start from. -/
def start (work : Place) (p : Path) : Place := if p.isAbsolute then [] else work

/-- The place that a path leads to. -/
def place (work : Place) (p : Path) : Place := walk (p.start work) p.names

/-- A path lands at `q` if its last name is looked up there. -/
def Lands (work : Place) (p : Path) (q : Place) : Prop :=
  ∃ above name, p.names = above ++ [name] ∧ name ≠ ".." ∧ q = walk (p.start work) above ++ [name]

/-- A path passes all places at which it or a front of it lands. -/
def Passes (work : Place) (p : Path) (q : Place) : Prop :=
  ∃ names, names <+: p.names ∧ Lands work ⟨p.slashes, names⟩ q

theorem Lands.passes (h : p.Lands work q) : p.Passes work q := ⟨p.names, List.prefix_rfl, h⟩

theorem Passes.of_prefix (h : p.Passes work q) (hslashes : p.slashes = p'.slashes)
    (hnames : p.names <+: p'.names) : p'.Passes work q := by
  obtain ⟨names, hfront, hlands⟩ := h
  exact ⟨names, hfront.trans hnames, hslashes ▸ hlands⟩

theorem Passes.of_parent (h : p.parent.Passes work q) : p.Passes work q :=
  h.of_prefix rfl (List.dropLast_prefix p.names)

end Path

namespace FileTree

variable {t t' t'' : FileTree} {place q : Place} {work : Place} {path : Path} {bytes : Bytes}

theorem follow_eq_walk {names : List String} (h : t.follow place names = .ok q) :
    q = walk place names := by
  induction names generalizing place with
  | nil =>
    cases h
    rfl
  | cons name names ih =>
    unfold follow at h
    split at h
    · cases h
    · split at h
      · cases h
      · exact ih h
    · cases h

/-! ## What becomes of places -/

theorem put_frame (entry : Entry) (h : q ≠ place) :
    FileTree.entry? (t.put place entry) q = t.entry? q := by
  have kept : (t.entries.filter (·.1 ≠ place)).lookup q = t.entries.lookup q := by
    induction t.entries with
    | nil => rfl
    | cons e entries ih =>
      obtain ⟨old, kept⟩ := e
      by_cases hold : old = place
      · have hne : (q == old) = false := beq_eq_false_iff_ne.2 (hold ▸ h)
        rw [List.filter_cons_of_neg (by simpa using hold), ih, List.lookup_cons, hne]
      · rw [List.filter_cons_of_pos (by simpa using hold), List.lookup_cons, List.lookup_cons, ih]
  have hne : (q == place) = false := beq_eq_false_iff_ne.2 h
  unfold FileTree.entry?
  simp only [put, List.lookup_cons, hne, kept]

theorem put_found (entry : Entry) (h : place ≠ []) :
    FileTree.entry? (t.put place entry) place = some entry := by
  unfold FileTree.entry?
  simp [put, h]

/-- What is at a place before and after directories are made where nothing is, if `dir`
allows it, and files are written where no directory is, with contents that `file` allows. -/
inductive Turned (dir : Prop) (file : Bytes → Prop) : Option Entry → Option Entry → Prop where
  | kept {found : Option Entry} : Turned dir file found found
  | made : dir → Turned dir file none (some .directory)
  | written {found : Option Entry} {bytes : Bytes} :
    file bytes → found ≠ some .directory → Turned dir file found (some (.data bytes))

theorem Turned.trans {dir : Prop} {file : Bytes → Prop} {a b c : Option Entry}
    (h : Turned dir file a b) (h' : Turned dir file b c) : Turned dir file a c := by
  cases h' with
  | kept => exact h
  | made hdir =>
    cases h
    exact .made hdir
  | written hfile hfound =>
    cases h with
    | kept => exact .written hfile hfound
    | made => exact absurd rfl hfound
    | written hfile' hfound' => exact .written hfile hfound'

theorem Turned.mono {dir dir' : Prop} {file file' : Bytes → Prop} {a b : Option Entry}
    (h : Turned dir file a b) (hdir : dir → dir') (hfile : ∀ bytes, file bytes → file' bytes) :
    Turned dir' file' a b := by
  cases h with
  | kept => exact .kept
  | made hmade => exact .made (hdir hmade)
  | written hwritten hfound => exact .written (hfile _ hwritten) hfound

/-- Every place is as before, but for directories that are made at `dirs` and files that are
written at `files`. -/
def Grown (dirs : Place → Prop) (files : Place → Bytes → Prop) (t t' : FileTree) : Prop :=
  ∀ q, Turned (dirs q) (files q) (t.entry? q) (t'.entry? q)

variable {dirs dirs' : Place → Prop} {files files' : Place → Bytes → Prop}

theorem Grown.refl (t : FileTree) : Grown dirs files t t := fun _ => .kept

theorem Grown.trans (h : Grown dirs files t t') (h' : Grown dirs files t' t'') :
    Grown dirs files t t'' := fun q => (h q).trans (h' q)

theorem Grown.mono (h : Grown dirs files t t') (hdirs : ∀ q, dirs q → dirs' q)
    (hfiles : ∀ q bytes, files q bytes → files' q bytes) : Grown dirs' files' t t' :=
  fun q => (h q).mono (hdirs q) (hfiles q)

/-- Directories stay. -/
theorem Grown.directory (h : Grown dirs files t t') (hq : t.entry? q = some .directory) :
    t'.entry? q = some .directory := by
  have turned := h q
  rw [hq] at turned
  generalize t'.entry? q = found at turned ⊢
  cases turned with
  | kept => rfl
  | written _ hfound => exact absurd rfl hfound

theorem ne_nil_of_no_directory (h : t.entry? place ≠ some .directory) : place ≠ [] := by
  rintro rfl
  exact h rfl

theorem put_directory_grown (hfree : t.entry? place = none) (hdir : dirs place) :
    Grown dirs files t (t.put place .directory) := by
  intro q
  by_cases hq : q = place
  · subst hq
    have hroot : q ≠ [] := by
      rintro rfl
      cases hfree
    rw [put_found _ hroot, hfree]
    exact .made hdir
  · rw [put_frame _ hq]
    exact .kept

theorem put_data_grown (hfound : t.entry? place ≠ some .directory) (hfile : files place bytes) :
    Grown dirs files t (t.put place (.data bytes)) := by
  intro q
  by_cases hq : q = place
  · subst hq
    rw [put_found _ (ne_nil_of_no_directory hfound)]
    exact .written hfile hfound
  · rw [put_frame _ hq]
    exact .kept

/-! ## Making and writing -/

/-- What is done in a directory that names lead to is done where they lead. -/
theorem eq_ok_of_follow {α : Type} {names : List String} {operate : Place → Except FileError α}
    {done : α} (h : ((t.follow place names).bind fun q =>
      match t.entry? q with
      | none => .error .missing
      | some .directory => operate q
      | some _ => .error .notDirectory) = .ok done) : operate (walk place names) = .ok done := by
  cases hfollow : t.follow place names with
  | error e =>
    rw [hfollow] at h
    cases h
  | ok q =>
    rw [hfollow, follow_eq_walk hfollow] at h
    simp only [Except.bind] at h
    split at h
    · cases h
    · exact h
    · cases h

/-- A directory is made where the path lands, if nothing is there yet. -/
theorem makeDirectory_eq_ok (h : t.makeDirectory work path = .ok t') :
    ∃ q, path.Lands work q ∧ t.entry? q = none ∧ t' = t.put q .directory := by
  unfold makeDirectory at h
  dsimp only at h
  split at h
  · cases h
  · rename_i name hname
    obtain ⟨above, hnames⟩ := List.getLast?_eq_some_iff.1 hname
    rw [hnames, List.dropLast_concat, ← Path.start] at h
    split at h
    · cases h
    · replace h := eq_ok_of_follow h
      split at h
      · cases h
      · split at h
        · cases h
        · rename_i hfree
          obtain ⟨hup, hfree⟩ := not_or.1 hfree
          cases h
          exact ⟨_, ⟨above, name, hnames, hup, rfl⟩, by simpa using hfree, rfl⟩

/-- A file is opened where the path lands, if no directory is there. -/
theorem openFile_eq_ok (h : t.openFile work path = .ok q) :
    path.Lands work q ∧ t.entry? q ≠ some .directory := by
  unfold openFile at h
  dsimp only at h
  split at h
  · cases h
  · rename_i name hname
    obtain ⟨above, hnames⟩ := List.getLast?_eq_some_iff.1 hname
    rw [hnames, List.dropLast_concat, ← Path.start] at h
    split at h
    · cases h
    · replace h := eq_ok_of_follow h
      split at h
      · cases h
      · split at h
        · cases h
        · rename_i hup
          split at h
          · cases h
          · rename_i hfree
            cases h
            exact ⟨⟨above, name, hnames, hup, rfl⟩, hfree⟩

theorem makeDirectory_grown (h : t.makeDirectory work path = .ok t') :
    Grown (path.Lands work) files t t' := by
  obtain ⟨q, hlands, hfree, rfl⟩ := makeDirectory_eq_ok h
  exact put_directory_grown hfree hlands

/-- However far it comes, it makes nothing but directories, and these on the way. -/
theorem makeAll_grown (t : FileTree) (work : Place) (slashes : Nat) (names : List String) :
    Grown (Path.Passes work ⟨slashes, names.reverse⟩) files t (t.makeAll work slashes names).1 := by
  induction names generalizing t with
  | nil => exact .refl t
  | cons name above ih =>
    have settled {t₁ t₂ : FileTree}
        (h : t₁.makeDirectory work ⟨slashes, (name :: above).reverse⟩ = .ok t₂) :
        Grown (Path.Passes work ⟨slashes, (name :: above).reverse⟩) files t₁ t₂ :=
      (makeDirectory_grown h).mono (fun _ hlands => hlands.passes) fun _ _ hfile => hfile
    unfold makeAll
    dsimp only
    split
    · -- those above come first, then the directory itself
      have habove : Grown (Path.Passes work ⟨slashes, (name :: above).reverse⟩) files t
          (t.makeAll work slashes above).1 :=
        (ih t).mono (fun q hq => hq.of_prefix rfl (by simp)) fun _ _ hfile => hfile
      split
      · rename_i t' heq
        rw [heq] at habove
        apply habove.trans
        split
        · rename_i hmade
          exact settled hmade
        · exact .refl t'
      · exact habove
    · split
      · rename_i hmade
        exact settled hmade
      · exact .refl t

theorem makeDirectories_grown (t : FileTree) (work : Place) (path : Path) :
    Grown (path.Passes work) files t (t.makeDirectories work path).1 := by
  have made : Grown (Path.Passes work ⟨path.slashes, path.names.reverse.reverse⟩) files t
      (t.makeDirectories work path).1 := makeAll_grown t work path.slashes path.names.reverse
  rwa [List.reverse_reverse] at made

end FileTree

/-! ## Writing -/

/-- What can be found of contents that have been written: all of them, or what the device had
kept when it failed. -/
def Device.Leaves (device : Device) (content bytes : Bytes) : Prop :=
  bytes = content ∨
    ∃ t place stop, device t place content = some stop ∧ bytes = content.take stop.kept

/-- Wherever the device fails, the file has what it leaves of the contents. -/
theorem FileTree.store_put (t : FileTree) (device : Device) (place : Place) (content : Bytes) :
    ∃ bytes, device.Leaves content bytes ∧
      (t.store device place content).1 = t.put place (.data bytes) := by
  unfold store
  split
  · exact ⟨content, .inl rfl, rfl⟩
  · rename_i stop hstop
    exact ⟨content.take stop.kept, .inr ⟨t, place, stop, hstop, rfl⟩, rfl⟩

theorem FileTree.store_eq_ok {t t' : FileTree} {device : Device} {place : Place} {content : Bytes}
    (h : t.store device place content = (t', .ok ())) : t' = t.put place (.data content) := by
  unfold store at h
  split at h <;> cases h
  rfl

end Spriting.Files

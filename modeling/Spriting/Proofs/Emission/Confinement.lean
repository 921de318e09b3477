import Mathlib.Data.List.Basic
import Spriting.Proofs.Emission.Writing
import Spriting.Proofs.Files.Downward

/-!
# What a directory sink reaches

A directory sink joins the name of a file to its root.  It writes the file where the joined
path lands, and makes directories at the places that the path of the directory passes.  A name
that starts with a slash or climbs out with a `..` takes both out of the root; for all other
names they lie below the root, or are directories that were missing on the way to it.

* `Reaches.confined`, `Confined.below`: what of this is below the root;
* `Emitter.emitAll_confined`: what stays below the root, however many images are emitted.
-/

namespace Spriting.Emission

open Files

variable {work : Place} {root path : Path} {s s' : Storage} {name target : String}
  {content : Bytes} {e : Emitter}

/-- From `t` to `t'`, files are written below the directory that `root` leads to, and missing
directories are made below it and on the way to it. -/
def Confined (work : Place) (root : Path) (t t' : FileTree) : Prop :=
  FileTree.Grown (fun q => Below (root.place work) q ∨ root.Passes work q)
    (fun q _ => Below (root.place work) q) t t'

/-- Whether a directory sink keeps a file below its root, wherever that is. -/
def Inward (target : String) : Prop := (Path.ofString target).Inward

instance (target : String) : Decidable (Inward target) :=
  inferInstanceAs (Decidable (Path.Inward _))

/-! ## One file -/

/-- A file whose name leads inwards stays below the root of its sink. -/
theorem Reaches.confined {left : Bytes → Prop} {t t' : FileTree}
    (h : Reaches work (pathBelow root target) left t t') (hinward : Inward target) :
    Confined work root t t' := by
  have hplain := Path.ofString_plain target
  refine h.mono ?_ ?_
  · intro q hq
    exact hinward.passes_join hplain hq.of_parent
  · intro q _ hq
    exact hinward.lands_join hplain hq.1

/-- If the root is there, nothing is made on the way to it. -/
theorem Confined.below {t t' : FileTree} (h : Confined work root t t') (hplain : root.Plain)
    (hroot : t.HasDirectory work root) :
    FileTree.Grown (Below (root.place work)) (fun q _ => Below (root.place work) q) t t' := by
  intro q
  by_cases hpass : root.Passes work q
  · have hdir := hroot.entry? hplain hpass
    rw [hdir, h.directory hdir]
    exact .kept
  · exact (h q).mono (fun hdir => hdir.resolve_right hpass) fun _ hfile => hfile

/-! ## Images -/

namespace Emitter

theorem emit_reaches (h : e.targetOf content = .ok (name, target)) :
    Reaches work (pathBelow root target) (s.device.Leaves content) s.tree
      (e.emit (Sink.directory work root) s content).1.tree := by
  rw [emit_storage h, Sink.write_directory]
  exact writeBelow_reaches s.tree s.device work (pathBelow root target) content

/-- An image that has been emitted is where its path lands. -/
theorem emit_found {url : String} (h : e.targetOf content = .ok (name, target))
    (hemit : e.emit (Sink.directory work root) s content = (s', .ok url)) :
    ∃ q, (pathBelow root target).Lands work q ∧
      FileTree.entry? s'.tree q = some (.data content) := by
  obtain ⟨_, _, target', -, htarget, hwrite, -⟩ := written_of_emit hemit
  cases h.symm.trans htarget
  rw [Sink.write_directory] at hwrite
  obtain ⟨rfl, hresult⟩ := Prod.mk.inj hwrite
  have written : writeBelow s.tree s.device work (pathBelow root target) content = (_, .ok ()) :=
    Prod.ext rfl hresult
  exact writeBelow_found written

/-- The storage after images have been emitted one after another, whether or not that of any
of them failed. -/
def emitAll {σ : Type} [FileSink σ] (e : Emitter) (sink : σ) (s : Storage)
    (contents : List Bytes) : Storage :=
  contents.foldl (fun s content => (e.emit sink s content).1) s

/-- All names that an emitter has for `contents` lead inwards. -/
def AllInward (e : Emitter) (contents : List Bytes) : Prop :=
  ∀ content ∈ contents, ∀ name target, e.targetOf content = .ok (name, target) → Inward target

theorem emitAll_inward {contents : List Bytes} (h : e.AllInward contents) :
    Confined work root s.tree (e.emitAll (Sink.directory work root) s contents).tree := by
  induction contents generalizing s with
  | nil => exact .refl s.tree
  | cons content contents ih =>
    obtain ⟨hhead, htail⟩ := List.forall_mem_cons.1 h
    have step : Confined work root s.tree (e.emit (Sink.directory work root) s content).1.tree := by
      cases htarget : e.targetOf content with
      | error cause =>
        rw [emit_of_nameless htarget]
        exact .refl s.tree
      | ok found => exact (emit_reaches htarget).confined (hhead _ _ htarget)
    exact step.trans (ih htail)

/-- **What stays below the root.** When an emitter gives an image to a directory sink, in
whatever state its storage is, nothing changes but the file at the place where the joined path
lands, which takes the contents or as much of them as the device keeps, and directories that
were missing at places that the path of its directory passes.  If its name leads inwards, the
file and the directories lie below the root, but for directories on the way to the root.  An
image that has been emitted is where its path lands, and unless the name of the image says the
name of the root, that is below the root exactly if the name leads inwards.  So however many
images are emitted, if all their names lead inwards, nothing changes outside of the root but
missing directories on the way to it. -/
theorem emitAll_confined (e : Emitter) (work : Place) (root : Path) (s : Storage) :
    (∀ content name target, e.targetOf content = .ok (name, target) →
      ∀ s' result, e.emit (Sink.directory work root) s content = (s', result) →
        Reaches work (pathBelow root target) (s.device.Leaves content) s.tree s'.tree ∧
        (Inward target → Confined work root s.tree s'.tree) ∧
        ∀ url, result = .ok url →
          ∃ q, (pathBelow root target).Lands work q ∧
            FileTree.entry? s'.tree q = some (.data content) ∧
            (Path.Foreign work root (.ofString target) →
              (Below (root.place work) q ↔ Inward target))) ∧
    (∀ content cause, e.targetOf content = .error cause →
      (e.emit (Sink.directory work root) s content).1 = s) ∧
    ∀ contents, e.AllInward contents →
      Confined work root s.tree (e.emitAll (Sink.directory work root) s contents).tree ∧
      (root.Plain → s.tree.HasDirectory work root →
        FileTree.Grown (Below (root.place work)) (fun q _ => Below (root.place work) q)
          s.tree (e.emitAll (Sink.directory work root) s contents).tree) := by
  refine ⟨?_, fun content cause => emit_of_nameless, ?_⟩
  · intro content name target htarget s' result hemit
    have reaches : Reaches work (pathBelow root target) (s.device.Leaves content) s.tree
        (e.emit (Sink.directory work root) s content).1.tree := emit_reaches htarget
    rw [hemit] at reaches
    refine ⟨reaches, reaches.confined, ?_⟩
    rintro url rfl
    obtain ⟨q, hlands, hfound⟩ := emit_found htarget hemit
    exact ⟨q, hlands, hfound, fun hforeign =>
      Path.below_iff_inward hforeign (Path.ofString_plain target) hlands⟩
  · intro contents hinward
    have confined : Confined work root s.tree
        (e.emitAll (Sink.directory work root) s contents).tree := emitAll_inward hinward
    exact ⟨confined, confined.below⟩

def outRoot : Path := .ofString "/out"

/-- The bytes of `abc`. -/
def abc : Bytes := [97, 98, 99]

/-- An emitter that calls all images `x`. -/
def emitterUnder (outputPath : String) : Emitter :=
  { outputPath := .text outputPath, template := .text "x" }

theorem ofString_img : Path.ofString "img/x" = ⟨0, ["img", "x"]⟩ := by decide +kernel

theorem ofString_up : Path.ofString "../up/x" = ⟨0, ["..", "up", "x"]⟩ := by decide +kernel

theorem targetOf_img : (emitterUnder "img/").targetOf abc = .ok ("x", "img/x") := by
  decide +kernel

theorem targetOf_up : (emitterUnder "../up/").targetOf abc = .ok ("x", "../up/x") := by
  decide +kernel

def outOnly : Storage := { tree := ⟨[(["out"], .directory)]⟩ }

theorem outOnly_hasDirectory : outOnly.tree.HasDirectory [] outRoot :=
  ⟨["out"], by decide +kernel, rfl⟩

/-- With a path for its sprite sheets an emitter stays below the root. -/
theorem emitAll_confined_image :
    (emitterUnder "img/").AllInward [abc] ∧ outOnly.tree.HasDirectory [] outRoot ∧
    FileTree.Grown (Below ["out"]) (fun q _ => Below ["out"] q) outOnly.tree
      ((emitterUnder "img/").emitAll (Sink.directory [] outRoot) outOnly [abc]).tree ∧
    ∃ s', (emitterUnder "img/").emit (Sink.directory [] outRoot) outOnly abc = (s', .ok "x") ∧
      FileTree.entry? s'.tree ["out", "img", "x"] = some (.data abc) ∧
      Below ["out"] ["out", "img", "x"] := by
  have hinward : Inward "img/x" := by
    rw [Inward, ofString_img]
    decide
  have hall : (emitterUnder "img/").AllInward [abc] := by
    intro content hmem name target h
    cases List.mem_singleton.1 hmem
    cases targetOf_img.symm.trans h
    exact hinward
  have hplace : outRoot.place [] = ["out"] := by decide +kernel
  have hplain : outRoot.Plain := Path.ofString_plain "/out"
  obtain ⟨s', hemit⟩ : ∃ s', (emitterUnder "img/").emit (Sink.directory [] outRoot) outOnly abc =
      (s', .ok "x") := by
    refine ⟨_, Prod.ext rfl ?_⟩
    rw [emit, targetOf_img]
    decide +kernel
  obtain ⟨step, -, run⟩ := emitAll_confined (emitterUnder "img/") [] outRoot outOnly
  obtain ⟨-, grown⟩ := run [abc] hall
  obtain ⟨-, -, found⟩ := step abc _ _ targetOf_img s' _ hemit
  obtain ⟨q, hlands, hfound, hbelow⟩ := found _ rfl
  rw [ofString_img] at hbelow
  rw [pathBelow, ofString_img] at hlands
  obtain rfl : q = ["out", "img", "x"] := Path.place_eq_of_lands (by decide +kernel) hlands
  have hforeign : Path.Foreign [] outRoot ⟨0, ["img", "x"]⟩ :=
    ⟨hplain, [], "out", hplace, by decide⟩
  rw [← hplace]
  exact ⟨hall, outOnly_hasDirectory, grown hplain outOnly_hasDirectory, s', hemit, hfound,
    (hbelow hforeign).2 hinward⟩

/-- With a path that climbs out, the file comes to lie beside the root. -/
theorem emit_climbs_out :
    outOnly.tree.HasDirectory [] outRoot ∧
    ∃ s', (emitterUnder "../up/").emit (Sink.directory [] outRoot) outOnly abc = (s', .ok "x") ∧
      FileTree.entry? outOnly.tree ["up", "x"] = none ∧
      FileTree.entry? s'.tree ["up", "x"] = some (.data abc) ∧
      ¬ Below (outRoot.place []) ["up", "x"] := by
  obtain ⟨s', hemit⟩ : ∃ s', (emitterUnder "../up/").emit (Sink.directory [] outRoot) outOnly abc =
      (s', .ok "x") := by
    refine ⟨_, Prod.ext rfl ?_⟩
    rw [emit, targetOf_up]
    decide +kernel
  obtain ⟨q, hlands, hfound⟩ := emit_found targetOf_up hemit
  rw [pathBelow, ofString_up] at hlands
  obtain rfl : q = ["up", "x"] := Path.place_eq_of_lands (by decide +kernel) hlands
  exact ⟨outOnly_hasDirectory, s', hemit, rfl, hfound, by decide +kernel⟩

end Emitter

end Spriting.Emission

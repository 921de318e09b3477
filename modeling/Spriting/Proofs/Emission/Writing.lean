import Spriting.Emission.Emitter
import Spriting.Proofs.Files.Making

/-!
# What writing a file changes

A directory sink writes the file where its path lands, and makes directories at the places that
the path of its directory passes.  If the device fails when the file has been opened, a front of
the contents may be all that is there, and what was there before is lost.

An emitter writes before it knows whether it can tell the URL, so of all its failures one leaves
the whole file behind.

* `writeBelow_ends`, `writeBelow_reaches`, `writeBelow_found`: what one file changes;
* `Sink.spoils_of_error`: what a file changes that is refused;
* `Emitter.fails_of_emit`, `Emitter.written_of_emit`: how emitting can fail, and what it has done
  if it does not.
-/

namespace Spriting.Emission

open Files

variable {work : Place} {path root : Path} {s s' : Storage} {content : Bytes}
  {name target : String}

/-! ## Files below a directory -/

/-- What writing a file at `path` can change, if `left` tells what comes of its contents. -/
def Reaches (work : Place) (path : Path) (left : Bytes → Prop) (t t' : FileTree) : Prop :=
  FileTree.Grown (path.parent.Passes work) (fun q bytes => path.Lands work q ∧ left bytes) t t'

/-- How writing a file can end: it is refused before or after its directories have been made, or
it has been opened and the device decides. -/
theorem writeBelow_ends (tree : FileTree) (device : Device) (work : Place) (path : Path)
    (content : Bytes) :
    (∃ refusal, writeBelow tree device work path content = (tree, .error refusal)) ∨
    (∃ refusal, writeBelow tree device work path content =
      ((tree.makeDirectories work path.parent).1, .error refusal)) ∨
    ∃ q, (tree.makeDirectories work path.parent).1.openFile work path = .ok q ∧
      writeBelow tree device work path content =
        ((tree.makeDirectories work path.parent).1.store device q content).map id
          (Except.mapError .failed) := by
  unfold writeBelow
  by_cases habove : path.parent.names.any holdsNul = true
  · rw [if_pos habove]
    exact .inl ⟨_, rfl⟩
  · rw [if_neg habove]
    refine .inr ?_
    cases hmade : tree.makeDirectories work path.parent with
    | mk made blocked =>
      cases blocked with
      | some blocked => exact .inl ⟨_, rfl⟩
      | none =>
        dsimp only
        by_cases hnames : path.names.any holdsNul = true
        · rw [if_pos hnames]
          exact .inl ⟨_, rfl⟩
        · rw [if_neg hnames]
          cases hopen : made.openFile work path with
          | error e => exact .inl ⟨_, rfl⟩
          | ok q => exact .inr ⟨q, rfl, rfl⟩

theorem writeBelow_reaches (tree : FileTree) (device : Device) (work : Place) (path : Path)
    (content : Bytes) :
    Reaches work path (device.Leaves content) tree
      (writeBelow tree device work path content).1 := by
  have made : Reaches work path (device.Leaves content) tree
      (tree.makeDirectories work path.parent).1 :=
    FileTree.makeDirectories_grown tree work path.parent
  obtain ⟨refusal, hwrite⟩ | ⟨refusal, hwrite⟩ | ⟨q, hopen, hwrite⟩ :=
    writeBelow_ends tree device work path content
  · rw [hwrite]
    exact .refl tree
  · rwa [hwrite]
  · rw [hwrite]
    obtain ⟨hlands, hfound⟩ := FileTree.openFile_eq_ok hopen
    obtain ⟨bytes, hleft, hput⟩ :=
      (tree.makeDirectories work path.parent).1.store_put device q content
    change Reaches work path _ tree (FileTree.store _ device q content).1
    rw [hput]
    exact made.trans (FileTree.put_data_grown hfound ⟨hlands, hleft⟩)

/-- A file that is not refused is where its path lands. -/
theorem writeBelow_found {tree tree' : FileTree} {device : Device}
    (h : writeBelow tree device work path content = (tree', .ok ())) :
    ∃ q, path.Lands work q ∧ FileTree.entry? tree' q = some (.data content) := by
  obtain ⟨refusal, hwrite⟩ | ⟨refusal, hwrite⟩ | ⟨q, hopen, hwrite⟩ :=
    writeBelow_ends tree device work path content
  · cases hwrite.symm.trans h
  · cases hwrite.symm.trans h
  · obtain ⟨hlands, hfound⟩ := FileTree.openFile_eq_ok hopen
    rw [hwrite] at h
    cases hstore : (tree.makeDirectories work path.parent).1.store device q content with
    | mk stored result =>
      rw [hstore] at h
      cases result with
      | error cause => cases h
      | ok u =>
        cases h
        rw [FileTree.store_eq_ok hstore]
        exact ⟨q, hlands, FileTree.put_found _ (FileTree.ne_nil_of_no_directory hfound)⟩

/-! ## Sinks -/

/-- The path at which a directory sink writes a file. -/
def pathBelow (root : Path) (target : String) : Path := root.join (.ofString target)

theorem Sink.write_directory (work : Place) (root : Path) (s : Storage) (target : String)
    (content : Bytes) :
    FileSink.write (Sink.directory work root) s target content =
      ({ s with tree := (writeBelow s.tree s.device work (pathBelow root target) content).1 },
        (writeBelow s.tree s.device work (pathBelow root target) content).2) := by
  simp only [FileSink.write, Sink.write, pathBelow]

/-- What a file can have changed that is refused.  The memory sink refuses none. -/
inductive Sink.Spoils (s : Storage) (target : String) (content : Bytes) :
    Sink → Storage → Prop where
  | broken {reason : String} : Spoils s target content (.broken reason) s
  | directory {work : Place} {root : Path} {tree : FileTree} :
    Reaches work (pathBelow root target) (s.device.Leaves content) s.tree tree →
    Spoils s target content (.directory work root) { s with tree }

theorem Sink.spoils_of_error {sink : Sink} {cause : WriteError}
    (h : FileSink.write sink s target content = (s', .error cause)) :
    sink.Spoils s target content s' := by
  cases sink with
  | memory => cases h
  | broken reason =>
    cases h
    exact .broken
  | directory work root =>
    rw [write_directory] at h
    obtain ⟨rfl, -⟩ := Prod.mk.inj h
    exact .directory (writeBelow_reaches s.tree s.device work (pathBelow root target) content)

-- on a full disk the file that was there is lost
example :
    let full : Device := fun _ _ _ => some ⟨2, .system, "No space left on device"⟩
    let s : Storage := { tree := ⟨[(["x"], .data [1])]⟩, device := full }
    FileTree.changesSince s.tree ((Sink.directory [] ⟨1, []⟩).write s "x" [7, 8, 9]).1.tree =
      [(["x"], [7, 8])] := by
  decide +kernel

/-! ## Emitters -/

namespace Emitter

variable {σ : Type} [FileSink σ] {sink : σ} {e : Emitter}

/-- How emitting can fail, and the storage that it leaves. -/
inductive Fails (e : Emitter) (sink : σ) (s : Storage) (content : Bytes) :
    Storage → EmitError → Prop where
  /-- The contents get no name: nothing is written. -/
  | nameless {cause : EmitError} :
    e.targetOf content = .error cause → Fails e sink s content s cause
  /-- The sink refuses the file: there is what the sink has left of it. -/
  | unwritten {name target : String} {s' : Storage} {refusal : WriteError} :
    e.targetOf content = .ok (name, target) →
    FileSink.write sink s target content = (s', .error refusal) →
    Fails e sink s content s' (.ofRefusal target refusal)
  /-- The file has been written and its URL cannot be told. -/
  | untold {name target : String} {s' : Storage} {cause : EmitError} :
    e.targetOf content = .ok (name, target) →
    FileSink.write sink s target content = (s', .ok ()) →
    TextUse.lead.text e.urlPrefix = .error cause → Fails e sink s content s' cause

theorem fails_of_emit {cause : EmitError} (h : e.emit sink s content = (s', .error cause)) :
    e.Fails sink s content s' cause := by
  unfold emit at h
  split at h
  · rename_i htarget
    cases h
    exact .nameless htarget
  · rename_i name target htarget
    split at h
    · rename_i storage hwrite
      injection h with hstorage hurl
      subst hstorage
      cases hlead : TextUse.lead.text e.urlPrefix with
      | ok lead =>
        rw [hlead] at hurl
        cases hurl
      | error cause' =>
        rw [hlead] at hurl
        cases hurl
        exact .untold htarget hwrite hlead
    · rename_i hwrite
      cases h
      exact .unwritten htarget hwrite

/-- An image that has a URL has been written under its name. -/
theorem written_of_emit {url : String} (h : e.emit sink s content = (s', .ok url)) :
    ∃ lead name target, TextUse.lead.text e.urlPrefix = .ok lead ∧
      e.targetOf content = .ok (name, target) ∧
      FileSink.write sink s target content = (s', .ok ()) ∧ url = lead ++ name := by
  unfold emit at h
  split at h
  · cases h
  · rename_i name target htarget
    split at h
    · rename_i storage hwrite
      injection h with hstorage hurl
      subst hstorage
      cases hlead : TextUse.lead.text e.urlPrefix with
      | error cause =>
        rw [hlead] at hurl
        cases hurl
      | ok lead =>
        rw [hlead] at hurl
        cases hurl
        exact ⟨lead, name, target, rfl, htarget, hwrite, rfl⟩
    · cases h

/-- An image that has no name does not come to the sink. -/
theorem emit_of_nameless {cause : EmitError} (h : e.targetOf content = .error cause) :
    (e.emit sink s content).1 = s := by
  unfold emit
  rw [h]

theorem emit_storage (h : e.targetOf content = .ok (name, target)) :
    (e.emit sink s content).1 = (FileSink.write sink s target content).1 := by
  unfold emit
  rw [h]
  cases hwrite : FileSink.write sink s target content with
  | mk storage result => cases result <;> simp [hwrite]

end Emitter

end Spriting.Emission

import Spriting.Files.Tree

/-!
# Sinks

A sink takes the files of a build.  Whatever takes a file by its name can be one, and
it can fail when it has changed some of what it writes to.

The memory sink keeps files by name, the directory sink writes below a directory and
makes the directories it needs, and a sink that is out of service refuses every file.
-/

namespace Spriting.Emission

open Files

/-- All that a sink can write to: the files of the machine and the device that keeps
them, and the files that the memory sink holds in the order of their names' first use. -/
structure Storage where
  tree : FileTree
  held : List (String × Bytes) := []
  device : Device := .sound

/-- Why a file was refused. -/
inductive WriteError where
  | nul
  | file (e : FileError) (path : Path)
  | failed (f : Failure)
deriving DecidableEq, Repr

namespace WriteError

def message : WriteError → String
  | nul => LoadError.nul.message ""
  | file e path => e.message path.toString
  | failed f => f.text

/-- Whether this is an error of the operating system. -/
def isSystem : WriteError → Bool
  | nul => false
  | file _ _ => true
  | failed f => f.kind = .system

end WriteError

/-- What can be used as a sink. -/
class FileSink (σ : Type) where
  /-- Writes a file of a name. -/
  write : σ → Storage → String → Bytes → Storage × Except WriteError Unit

/-! ## The sinks of the program -/

inductive Sink where
  | memory
  /-- Below `root`, seen from the working directory. -/
  | directory (work : Place) (root : Path)
  | broken (reason : String)

/-- Keeps a file under its name, in the place of one that has it already. -/
def hold (held : List (String × Bytes)) (name : String) (bytes : Bytes) : List (String × Bytes) :=
  match held with
  | [] => [(name, bytes)]
  | (old, kept) :: rest =>
    if old = name then (name, bytes) :: rest else (old, kept) :: hold rest name bytes

/-- Writes a file below a directory.  The directories that were made stay when
the file itself is refused. -/
def writeBelow (tree : FileTree) (device : Device) (work : Place) (target : Path)
    (bytes : Bytes) : FileTree × Except WriteError Unit :=
  if target.parent.names.any holdsNul then (tree, .error .nul)
  else
    match tree.makeDirectories work target.parent with
    | (tree', some (e, path)) => (tree', .error (.file e path))
    | (tree', none) =>
      if target.names.any holdsNul then (tree', .error .nul)
      else match tree'.openFile work target with
        | .error e => (tree', .error (.file e target))
        | .ok place =>
          let (tree'', result) := tree'.store device place bytes
          (tree'', result.mapError .failed)

/-- Writes a file of this name to a sink. -/
def Sink.write (sink : Sink) (storage : Storage) (name : String) (bytes : Bytes) :
    Storage × Except WriteError Unit :=
  match sink with
  | memory => ({ storage with held := hold storage.held name bytes }, .ok ())
  | directory work root =>
    let (tree, result) :=
      writeBelow storage.tree storage.device work (root.join (.ofString name)) bytes
    ({ storage with tree }, result)
  | broken reason => (storage, .error (.failed ⟨.system, reason⟩))

instance : FileSink Sink := ⟨Sink.write⟩

end Spriting.Emission

import Spriting.Command.Program

/-!
# The command line

Runs the program on the files below the working directory and writes back what
it has changed.  Images are files in the written form of `Raster.encode`.
-/

namespace Spriting.Main

open Command Files

/-- A place as the system names it. -/
def nameOf (place : Place) : String := "/" ++ "/".intercalate place

/-- Adds a directory at a place and all below it to a tree. -/
partial def load (tree : FileTree) (place : Place) (directory : IO.FS.DirEntry) :
    IO FileTree := do
  let mut tree := tree.put place .directory
  for found in ← directory.path.readDir do
    let inside := place ++ [found.fileName]
    match (← found.path.metadata).type with
    | .dir => tree ← load tree inside found
    | .file => tree := tree.put inside (.data (← IO.FS.readBinFile (nameOf inside)).toList)
    | _ => pure ()
  return tree

/-- Writes a file that a command has changed. -/
def store (place : Place) (bytes : Bytes) : IO Unit := do
  IO.FS.createDirAll (nameOf place.dropLast)
  IO.FS.writeBinFile (nameOf place) ⟨bytes.toArray⟩

end Spriting.Main

open Spriting in
/-- Runs the program. -/
def main (args : List String) : IO UInt32 := do
  let root ← IO.currentDir
  let work := (Files.Path.ofString root.toString).names
  let tree ← Main.load .empty work { root, fileName := "." }
  let finish := Command.run { tree, work, library := .plain } args
  for (place, bytes) in Files.FileTree.changesSince tree finish.tree do
    Main.store place bytes
  IO.print finish.stdout
  IO.eprint finish.stderr
  match finish.crash with
  | some crash => IO.eprintln ("Error: " ++ crash.message)
  | none => pure ()
  return UInt32.ofNat finish.exitCode

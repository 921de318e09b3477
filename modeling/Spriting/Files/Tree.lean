import Spriting.Files.Path
import Spriting.Image.Library

/-!
# File trees

A file tree maps places to directories and files.  A place is the list of the
names that lead to it from the root; the root is always a directory.

A path is followed name by name, each of which needs a directory to be looked up
in: `..` leads to the directory that holds this one, and an empty name, such as a
slash at the end leaves, stays.

A name has at most 255 bytes and a path at most 4095.

A file that is written has been opened before, and has lost what it held.  A device
that fails then keeps no more than a front of the new contents.
-/

namespace Spriting.Files

open Image

/-- The names that lead from the root to a file or a directory. -/
abbrev Place := List String

inductive Entry where
  | directory
  | data (bytes : Bytes)
  /-- A file of which it is known what image it holds. -/
  | image (raster : Raster)

structure FileTree where
  entries : List (Place × Entry)

/-- Why the operation on a file was refused. -/
inductive FileError where
  | missing
  | occupied
  | notDirectory
  | isDirectory
  | nameTooLong
deriving DecidableEq, Repr

namespace FileError

def number : FileError → Nat
  | missing => 2
  | occupied => 17
  | notDirectory => 20
  | isDirectory => 21
  | nameTooLong => 36

def reason : FileError → String
  | missing => "No such file or directory"
  | occupied => "File exists"
  | notDirectory => "Not a directory"
  | isDirectory => "Is a directory"
  | nameTooLong => "File name too long"

/-- The text of the error for the file at `path`. -/
def message (e : FileError) (path : String) : String :=
  "[Errno " ++ toString e.number ++ "] " ++ e.reason ++ ": " ++ Text.quoted path

end FileError

/-- Whether a text holds the character that ends a text for the system. -/
def holdsNul (text : String) : Bool := text.toList.contains '\x00'

/-- Whether a name has more bytes than a directory can keep. -/
def isLongName (name : String) : Bool := 255 < name.utf8ByteSize

/-- Whether a path has more bytes than the system takes. -/
def isLongPath (path : String) : Bool := 4095 < path.utf8ByteSize

namespace FileTree

def empty : FileTree := ⟨[]⟩

def entry? (t : FileTree) (place : Place) : Option Entry :=
  if place = [] then some .directory else t.entries.lookup place

/-- Puts a file or a directory at a place. -/
def put (t : FileTree) (place : Place) (entry : Entry) : FileTree :=
  ⟨(place, entry) :: t.entries.filter (·.1 ≠ place)⟩

/-- The place that a name leads to. -/
def stepTo (place : Place) (name : String) : Place :=
  if name = "" ∨ name = "." then place
  else if name = ".." then place.dropLast
  else place ++ [name]

/-- Follows names from a place. -/
def follow (t : FileTree) (place : Place) : List String → Except FileError Place
  | [] => .ok place
  | name :: names =>
    match t.entry? place with
    | none => .error .missing
    | some .directory =>
      if isLongName name then .error .nameTooLong else t.follow (stepTo place name) names
    | some _ => .error .notDirectory

/-- What a path leads to. -/
def find (t : FileTree) (work : Place) (path : String) : Except FileError (Place × Entry) :=
  if path = "" then .error .missing
  else if isLongPath path then .error .nameTooLong
  else
    let start := if path.toList.head? = some '/' then [] else work
    (t.follow start (rawNames path)).bind fun place =>
      match t.entry? place with
      | some entry => .ok (place, entry)
      | none => .error .missing

def isDirectory (t : FileTree) (work : Place) (path : String) : Bool :=
  match t.find work path with
  | .ok (_, .directory) => true
  | _ => false

/-- Makes a directory in one that exists. -/
def makeDirectory (t : FileTree) (work : Place) (path : Path) : Except FileError FileTree :=
  let start := if path.isAbsolute then [] else work
  match path.names.getLast? with
  | none => .error .occupied
  | some name =>
    if isLongPath path.toString then .error .nameTooLong
    else (t.follow start path.names.dropLast).bind fun place =>
      match t.entry? place with
      | none => .error .missing
      | some .directory =>
        if isLongName name then .error .nameTooLong
        else if name = ".." ∨ (t.entry? (place ++ [name])).isSome then .error .occupied
        else .ok (t.put (place ++ [name]) .directory)
      | some _ => .error .notDirectory

/-- Makes a directory and those above it, and stops at the first that is in the
way.  The names of the path are given last first. -/
def makeAll (t : FileTree) (work : Place) (slashes : Nat) :
    List String → FileTree × Option (FileError × Path)
  | [] => (t, none)
  | name :: above =>
    let path : Path := ⟨slashes, (name :: above).reverse⟩
    let settle (t : FileTree) : FileTree × Option (FileError × Path) :=
      match t.makeDirectory work path with
      | .ok t' => (t', none)
      | .error e => (t, if t.isDirectory work path.toString then none else some (e, path))
    match t.makeDirectory work path with
    | .error .missing =>
      match t.makeAll work slashes above with
      | (t', none) => settle t'
      | failed => failed
    | _ => settle t

/-- Makes a directory and those above it where they are missing. -/
def makeDirectories (t : FileTree) (work : Place) (path : Path) :
    FileTree × Option (FileError × Path) :=
  t.makeAll work path.slashes path.names.reverse

/-- Opens a file for writing in a directory that exists, and answers its place. -/
def openFile (t : FileTree) (work : Place) (path : Path) : Except FileError Place :=
  let start := if path.isAbsolute then [] else work
  match path.names.getLast? with
  | none => .error .isDirectory
  | some name =>
    if isLongPath path.toString then .error .nameTooLong
    else (t.follow start path.names.dropLast).bind fun place =>
      match t.entry? place with
      | none => .error .missing
      | some .directory =>
        if isLongName name then .error .nameTooLong
        else if name = ".." then .error .isDirectory
        else match t.entry? (place ++ [name]) with
          | some .directory => .error .isDirectory
          | _ => .ok (place ++ [name])
      | some _ => .error .notDirectory

/-- Writes a file into a directory that exists, on a device that does not fail. -/
def write (t : FileTree) (work : Place) (path : Path) (bytes : Bytes) :
    Except FileError FileTree :=
  (t.openFile work path).map fun place => t.put place (.data bytes)

/-- The files that are new or have other contents than in `before`. -/
def changesSince (before after : FileTree) : List (Place × Bytes) :=
  after.entries.filterMap fun
    | (place, .data bytes) =>
      match before.entry? place with
      | some (.data old) => if old = bytes then none else some (place, bytes)
      | _ => some (place, bytes)
    | _ => none

end FileTree

/-! ## Devices -/

/-- Where a device stops in the bytes of a file, and what it fails with. -/
structure Stop where
  kept : Nat
  failure : Failure

/-- Where the bytes that are written to a file at a place stop, if they do. -/
abbrev Device := FileTree → Place → Bytes → Option Stop

/-- The device that never fails. -/
def Device.sound : Device := fun _ _ _ => none

/-- Writes the bytes of a file that has been opened. -/
def FileTree.store (t : FileTree) (device : Device) (place : Place) (bytes : Bytes) :
    FileTree × Except Failure Unit :=
  match device t place bytes with
  | none => (t.put place (.data bytes), .ok ())
  | some stop => (t.put place (.data (bytes.take stop.kept)), .error stop.failure)

/-! ## Loading images -/

/-- Why an image could not be loaded. -/
inductive LoadError where
  | nul
  | file (e : FileError)
  /-- The library cannot read the file. -/
  | decode (f : Failure)
deriving DecidableEq, Repr

namespace LoadError

def message (path : String) : LoadError → String
  | nul => "embedded null byte"
  | file e => e.message path
  | decode f => f.text

/-- Whether this is an error of the operating system. -/
def isSystem : LoadError → Bool
  | nul => false
  | file _ => true
  | decode f => f.kind = .system

end LoadError

/-- The image that a path leads to. -/
def FileTree.loadImage (t : FileTree) (work : Place) (library : Library := .oneWay)
    (path : String) : Except LoadError Raster :=
  if holdsNul path then .error .nul
  else match t.find work path with
    | .error e => .error (.file e)
    | .ok (_, .directory) => .error (.file .isDirectory)
    | .ok (_, .data bytes) => (library.decode path bytes).mapError .decode
    | .ok (_, .image raster) => .ok raster

end Spriting.Files

import Spriting.Command.Arguments
import Spriting.Command.Finish

/-!
# The stylesheet of a command

Every command takes one stylesheet: an existing file that is no directory.  Its
bytes are UTF-8, and every kind of line end counts as a line feed.
-/

namespace Spriting.Command

open Files Text

/-- Where a command runs. -/
structure Machine where
  tree : FileTree
  work : Place
  library : Image.Library := .oneWay

/-- Line ends as line feeds. -/
def unifyLineEnds : List Char → List Char
  | '\r' :: '\n' :: cs => '\n' :: unifyLineEnds cs
  | '\r' :: cs => '\n' :: unifyLineEnds cs
  | c :: cs => c :: unifyLineEnds cs
  | [] => []

/-- The text of a file. -/
def Machine.readText (m : Machine) (path : String) : Except Crash String :=
  match m.tree.find m.work path with
  | .error e => .error (.file e)
  | .ok (_, .directory) => .error (.file .isDirectory)
  | .ok (_, .image _) => .error .badEncoding
  | .ok (_, .data bytes) =>
    match String.fromUTF8? ⟨bytes.toArray⟩ with
    | some text => .ok (String.ofList (unifyLineEnds text.toList))
    | none => .error .badEncoding

/-- Why a command cannot be carried out. -/
inductive Refusal where
  | usage (message : String)
  | crash (c : Crash)

/-- Ends a command that cannot be carried out. -/
def Machine.refusal (m : Machine) (u : Usage) : Refusal → Finish
  | .usage message => refuse m.tree u message
  | .crash c => crashed m.tree "" c

/-- The complaint about a value. -/
def invalidValue (name message : String) : Refusal :=
  .usage ("Invalid value for " ++ quoted name ++ ": " ++ message)

/-- Checks the path of a stylesheet. -/
def Machine.checkStylesheet (m : Machine) : Option String → Except Refusal String
  | none => .error (.usage "Missing argument 'STYLESHEET'.")
  | some path =>
    if holdsNul path then .error (.crash .nul)
    else match m.tree.find m.work path with
      | .error _ =>
        .error (invalidValue "STYLESHEET" ("File " ++ quoted path ++ " does not exist."))
      | .ok (_, .directory) =>
        .error (invalidValue "STYLESHEET" ("File " ++ quoted path ++ " is a directory."))
      | .ok _ => .ok path

/-- Refuses arguments for which there is no use. -/
def checkExtra : List String → Except Refusal Unit
  | [] => .ok ()
  | [extra] => .error (.usage ("Got unexpected extra argument (" ++ extra ++ ")"))
  | extras => .error (.usage ("Got unexpected extra arguments (" ++ " ".intercalate extras ++ ")"))

/-- Ends a command whose command line cannot be read. -/
def Machine.unreadable (m : Machine) (u : Usage) (e : ArgumentError) : Finish :=
  match e with
  | .unknown _ _ => refuse m.tree u e.message
  | _ => { exitCode := 2, stderr := plainLine ("Error: " ++ e.message), tree := m.tree }

end Spriting.Command

import Spriting.Build.Process
import Spriting.Text.ControlSequence

/-!
# How a command ends

A command ends with an exit code, what it has printed, and the files it leaves.
A failure that it does not report itself is a crash.

What a command prints it prints without control sequences, whatever comes from
outside; the log is printed as it is.
-/

namespace Spriting.Command

open Files

/-- A failure that a command does not report. -/
inductive Crash where
  | badEncoding
  | file (e : FileError)
  /-- A build failed for a reason that is no fault of the sheet or its images. -/
  | build (e : Build.BuildError)
  | nul
deriving DecidableEq, Repr

def Crash.message : Crash → String
  | badEncoding => "the stylesheet is not UTF-8"
  | file e => e.reason
  | build e => e.message
  | nul => LoadError.nul.message ""

structure Finish where
  exitCode : Nat := 0
  stdout : String := ""
  stderr : String := ""
  crash : Option Crash := none
  tree : FileTree

/-- How a command is called. -/
structure Usage where
  /-- The program, and the command if it is one of several. -/
  command : String
  synopsis : String

/-- A text as it is printed, with a line end behind it. -/
def plainLine (text : String) : String :=
  String.ofList (Text.withoutControls text.toList) ++ "\n"

def Usage.line (u : Usage) : String := "Usage: " ++ u.command ++ " " ++ u.synopsis ++ "\n"

/-- What is printed about a command line that cannot be carried out. -/
def Usage.complaint (u : Usage) (message : String) : String :=
  u.line ++ "Try '" ++ u.command ++ " --help' for help.\n\n" ++ plainLine ("Error: " ++ message)

/-- Ends a command because of its command line. -/
def refuse (tree : FileTree) (u : Usage) (message : String) : Finish :=
  { exitCode := 2, stderr := u.complaint message, tree }

/-- Ends a command with a failure that it does not report. -/
def crashed (tree : FileTree) (stderr : String) (crash : Crash) : Finish :=
  { exitCode := 1, stderr, crash := some crash, tree }

end Spriting.Command

import Spriting.Command.Build
import Spriting.Command.Inspect

/-!
# The program

The program takes the name of a command and the arguments of that command.
-/

namespace Spriting.Command

open Build

inductive ProgramOption where
  | version
  | help
deriving DecidableEq, Repr

def programOptions : List (OptionSpec ProgramOption) :=
  [⟨.version, ["--version"], false⟩, ⟨.help, ["--help"], false⟩]

def programUsage : Usage := ⟨programName, "[OPTIONS] COMMAND [ARGS]..."⟩

/-- What the program says about itself. -/
def overview : String :=
  programUsage.line
    ++ "\n  sprite-loader - pack CSS background images into sprite sheets.\n"
    ++ "\nOptions:\n"
    ++ "  --version  Show the version and exit.\n"
    ++ "  --help     Show this message and exit.\n"
    ++ "\nCommands:\n"
    ++ "  build    Replace the background images of STYLESHEET with sprite sheets.\n"
    ++ "  inspect  Parse STYLESHEET and list the sprite groups it would produce.\n"

def versionLine : String := programName ++ ", version 0.1.0\n"

/-- The commands of the program. -/
def commands : List (String × (Machine → List String → Finish)) :=
  [("build", build), ("inspect", inspect)]

/-- What the program says for an option of its own. -/
def ProgramOption.carryOut (m : Machine) : ProgramOption → Finish
  | version => { stdout := versionLine, tree := m.tree }
  | help => { stdout := overview, tree := m.tree }

/-- Carries out the command of this name.  Where there is none, the name and the
arguments are read once more as options of the program. -/
def dispatch (m : Machine) (name : String) (args : List String) : Finish :=
  match commands.lookup name with
  | some command => command m args
  | none =>
    match readArguments programOptions false (name :: args) with
    | .error e => m.unreadable programUsage e
    | .ok found =>
      match found.given with
      | option :: _ => option.carryOut m
      | [] =>
        refuse m.tree programUsage ("No such command " ++ Text.quoted name ++ "."
          ++ suggestion (Text.similarTexts name (commands.map (·.1))))

/-- Runs the program. -/
def run (m : Machine) (args : List String) : Finish :=
  if args = [] then { exitCode := 2, stderr := overview, tree := m.tree }
  else match readArguments programOptions false args with
    | .error e => m.unreadable programUsage e
    | .ok found =>
      match found.given, found.arguments with
      | option :: _, _ => option.carryOut m
      | [], [] => refuse m.tree programUsage "Missing command."
      | [], name :: args => dispatch m name args

end Spriting.Command

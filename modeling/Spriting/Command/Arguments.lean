import Spriting.Text.Quoted
import Spriting.Text.Similar

/-!
# Reading a command line

A command line holds options, by a long or a short name, and arguments.  The
value of an option follows it, or stands behind `=` after a long name or right
behind a short one.  Short options without value may share one dash, and after
`--` there are arguments only.
-/

namespace Spriting.Command

open Text

structure OptionSpec (ι : Type) where
  id : ι
  /-- Long names start with two dashes, short ones with one. -/
  names : List String
  takesValue : Bool

/-- What was found on a command line, in order. -/
structure Found (ι : Type) where
  options : List (ι × String) := []
  arguments : List String := []

/-- Why a command line could not be read. -/
inductive ArgumentError where
  | unknown (name : String) (similar : List String)
  | needsValue (name : String)
  | takesNone (name : String)
deriving DecidableEq, Repr

/-- What is added to the complaint about an unknown name. -/
def suggestion : List String → String
  | [] => ""
  | [name] => " Did you mean " ++ quoted name ++ "?"
  | names =>
    " (Did you mean one of: " ++ ", ".intercalate ((names.mergeSort (· ≤ ·)).map quoted) ++ "?)"

namespace ArgumentError

def message : ArgumentError → String
  | unknown name similar => "No such option " ++ quoted name ++ "." ++ suggestion similar
  | needsValue name => "Option " ++ quoted name ++ " requires an argument."
  | takesNone name => "Option " ++ quoted name ++ " does not take a value."

end ArgumentError

/-- The parts of an argument before and behind its first `=`. -/
def splitValue (arg : List Char) : List Char × Option (List Char) :=
  match arg.dropWhile (· != '=') with
  | _ :: value => (arg.takeWhile (· != '='), some value)
  | [] => (arg, none)

variable {ι : Type}

def findOption (specs : List (OptionSpec ι)) (name : String) : Option (OptionSpec ι) :=
  specs.find? (·.names.contains name)

/-- What an argument with a dash in front says: the options in it with their
values, or options and one more whose value is the next argument. -/
inductive Reading (ι : Type) where
  | complete (options : List (ι × String))
  | awaiting (options : List (ι × String)) (id : ι) (name : String)

/-- Reads short options that share a dash. -/
def readShort (specs : List (OptionSpec ι)) : List Char → Except ArgumentError (Reading ι)
  | [] => .ok (.complete [])
  | c :: cs =>
    let name := String.ofList ['-', c]
    match findOption specs name with
    | none => .error (.unknown name [])
    | some spec =>
      if spec.takesValue then
        .ok (if cs = [] then .awaiting [] spec.id name else .complete [(spec.id, String.ofList cs)])
      else
        (readShort specs cs).map fun
          | .complete options => .complete ((spec.id, "") :: options)
          | .awaiting options id name => .awaiting ((spec.id, "") :: options) id name

/-- Reads an argument with a dash in front. -/
def readOption (specs : List (OptionSpec ι)) (arg : String) : Except ArgumentError (Reading ι) :=
  let (name, value?) := splitValue arg.toList
  let long := String.ofList name
  match (if long.startsWith "--" then findOption specs long else none), value? with
  | some spec, some value =>
    if spec.takesValue then .ok (.complete [(spec.id, String.ofList value)])
    else .error (.takesNone long)
  | some spec, none =>
    .ok (if spec.takesValue then .awaiting [] spec.id long else .complete [(spec.id, "")])
  | none, _ =>
    if arg.startsWith "--" then
      let longNames := (specs.flatMap (·.names)).filter (·.startsWith "--")
      .error (.unknown long (similarTexts long longNames))
    else readShort specs (arg.toList.drop 1)

/-- Whether an argument stands for options. -/
def isOption (arg : String) : Bool := arg.startsWith "-" && arg ≠ "-"

/-- Adds options in front of what was found behind them. -/
def Found.addOptions (found : Found ι) (options : List (ι × String)) : Found ι :=
  { found with options := options ++ found.options }

/-- Reads a command line.  `mixed` says whether options may follow arguments; if
not, everything from the first argument on is an argument. -/
def readArguments (specs : List (OptionSpec ι)) (mixed : Bool) :
    List String → Except ArgumentError (Found ι)
  | [] => .ok {}
  | arg :: args =>
    if arg = "--" then .ok { arguments := args }
    else if isOption arg then
      match readOption specs arg, args with
      | .error e, _ => .error e
      | .ok (.complete options), args =>
        (readArguments specs mixed args).map (·.addOptions options)
      | .ok (.awaiting _ _ name), [] => .error (.needsValue name)
      | .ok (.awaiting options id _), value :: args =>
        (readArguments specs mixed args).map (·.addOptions (options ++ [(id, value)]))
    else if mixed then
      (readArguments specs mixed args).map fun found =>
        { found with arguments := arg :: found.arguments }
    else .ok { arguments := arg :: args }

/-- The value that an option was given last. -/
def Found.value? [BEq ι] (found : Found ι) (id : ι) : Option String :=
  (found.options.reverse.find? (·.1 == id)).map (·.2)

/-- Whether an option was given. -/
def Found.holds [BEq ι] (found : Found ι) (id : ι) : Bool := (found.value? id).isSome

/-- The options that were given, in the order of their first use. -/
def Found.given [BEq ι] (found : Found ι) : List ι := (found.options.map (·.1)).eraseDups

end Spriting.Command

import Spriting.Command.Source
import Spriting.Text.Integer

/-!
# The build command

Builds a stylesheet, writes its sprite sheets below a directory, and prints the
result or writes it to a file.  It tells of every sprite sheet it has written and
of a sheet that it passes on as it is.
-/

namespace Spriting.Command

open Build Files Text

inductive BuildOption where
  | output
  | outputDir
  | outputPath
  | cssImagePath
  | publicPath
  | padding
  | compress
  | debug
  | help
deriving DecidableEq, Repr

def buildOptions : List (OptionSpec BuildOption) :=
  [⟨.output, ["-o", "--output"], true⟩, ⟨.outputDir, ["--output-dir"], true⟩,
   ⟨.outputPath, ["--output-path"], true⟩, ⟨.cssImagePath, ["--css-image-path"], true⟩,
   ⟨.publicPath, ["--public-path"], true⟩, ⟨.padding, ["--padding"], true⟩,
   ⟨.compress, ["--compress"], false⟩, ⟨.debug, ["--debug"], false⟩, ⟨.help, ["--help"], false⟩]

def buildUsage : Usage := ⟨programName ++ " build", "[OPTIONS] STYLESHEET"⟩

/-- Checks the value of an option. -/
def checkBuildOption (m : Machine) (found : Found BuildOption) (id : BuildOption) :
    Option Refusal :=
  let value := (found.value? id).getD ""
  match id with
  | .padding =>
    if (readInt value).isOk then none
    else some (invalidValue "--padding" (quoted value ++ " is not a valid integer."))
  | .outputDir =>
    if holdsNul value then some (.crash .nul)
    else match m.tree.find m.work value with
      | .error _ | .ok (_, .directory) => none
      | .ok _ => some (invalidValue "--output-dir" ("Directory " ++ quoted value ++ " is a file."))
  | _ => none

/-- Checks the options in the order in which they were given, then the arguments.
Answers the path of the stylesheet. -/
def checkBuild (m : Machine) (found : Found BuildOption) : Except Refusal String := do
  match found.given.findSome? (checkBuildOption m found) with
  | some refusal => throw refusal
  | none => pure ()
  let stylesheet ← m.checkStylesheet found.arguments.head?
  checkExtra (found.arguments.drop 1)
  return stylesheet

/-- The settings that the options ask for. -/
def settingsOf (found : Found BuildOption) : Settings :=
  let textOf (id : BuildOption) : String := (found.value? id).getD ""
  let css := textOf .cssImagePath
  { emitter :=
      { outputPath := .text (textOf .outputPath)
        urlPrefix := .text (if css ≠ "" then css else textOf .publicPath) }
    padding :=
      ((found.value? .padding).bind fun value => (readInt value).toOption).getD Sprite.defaultPadding
    debug := found.holds .debug
    compress := found.holds .compress }

/-- Who listens to a build on the command line. -/
def listeners : List (Listener Event String) :=
  [{ kinds := [.spriteEmitted]
     call := fun
      | .spriteEmitted url size => plainLine ("Emitted " ++ url ++ " (" ++ toString size ++ " bytes)")
      | _ => "" },
   { kinds := [.skipped]
     call := fun
      | .skipped resource => plainLine ("Skipped " ++ resource ++ ": no sprite-loader-enable marker")
      | _ => "" }]

/-- What a report prints. -/
def printed (debug : Bool) : Report → String
  | .event e => String.join (announce listeners e.kind e)
  | .notice n => if debug then n.level ++ ":" ++ n.logger ++ ":" ++ n.message ++ "\n" else ""

/-- Ends a build that failed, after what it has printed. -/
def failedBuild (tree : FileTree) (stderr : String) (e : BuildError) : Finish :=
  let reported (title : String) : Finish :=
    { exitCode := 1, stderr := stderr ++ plainLine (title ++ ": " ++ e.message), tree }
  match e with
  | .parse _ => reported "Parse error"
  | .pack cause =>
    if cause.isReported then reported "Build failed" else crashed tree stderr (.build e)
  | .emit (.unwritable _ _) => reported "Build failed"
  | .emit _ | .place _ => crashed tree stderr (.build e)

/-- Writes the result of a build where it is wanted. -/
def deliver (m : Machine) (tree : FileTree) (output : String) (stderr css : String) : Finish :=
  if output = "" then { stdout := plainLine css, stderr, tree }
  else if holdsNul output then crashed tree stderr .nul
  else match tree.write m.work (.ofString output) (utf8 css) with
    | .ok tree' => { stderr, tree := tree' }
    | .error e => crashed tree stderr (.file e)

/-- Builds the stylesheet at a path. -/
def buildAt (m : Machine) (found : Found BuildOption) (stylesheet : String) : Finish :=
  let path := Path.ofString stylesheet
  match m.readText path.toString with
  | .error crash => crashed m.tree "" crash
  | .ok source =>
    let outputDir := (found.value? .outputDir).getD ""
    let root := if outputDir ≠ "" then Path.ofString outputDir else path.parent
    let site : Site :=
      { settings := settingsOf found
        sink := .directory m.work root
        library := m.library
        work := m.work
        base := baseOf m.work path.parent.toString }
    let outcome := process site { tree := m.tree } source path.toString
    let tree := outcome.storage.tree
    let stderr := String.join (outcome.reports.map (printed site.settings.debug))
    match outcome.result with
    | .error e => failedBuild tree stderr e
    | .ok css => deliver m tree ((found.value? .output).getD "") stderr css

/-- The build command. -/
def build (m : Machine) (args : List String) : Finish :=
  match readArguments buildOptions true args with
  | .error e => m.unreadable buildUsage e
  | .ok found =>
    if found.holds .help then { stdout := buildUsage.line, tree := m.tree }
    else match checkBuild m found with
      | .error refusal => m.refusal buildUsage refusal
      | .ok stylesheet => buildAt m found stylesheet

end Spriting.Command

import Spriting.Command.Source

/-!
# The inspect command

Reads a stylesheet and lists the groups that a build would pack.
-/

namespace Spriting.Command

open Background Build Files

def inspectOptions : List (OptionSpec Unit) := [⟨(), ["--help"], false⟩]

def inspectUsage : Usage := ⟨programName ++ " inspect", "[OPTIONS] STYLESHEET"⟩

/-- The line of a member of a group. -/
def memberLine (ref : Reference) : String :=
  plainLine ("  " ++ ", ".intercalate ref.selectors ++ "  ->  " ++ ref.url)

/-- The lines of a group. -/
def groupLines (g : Group) : String :=
  "\nGroup " ++ toString g.key.ratio.toNat ++ "x " ++ g.key.repeatMode.keyword ++ " ("
    ++ (Layout.algorithmFor g.key.repeatMode).name ++ ", " ++ toString g.members.length
    ++ " image(s)):\n" ++ String.join (g.members.map memberLine)

/-- What is told of a stylesheet. -/
def summary (name : String) (sheet : Css.Stylesheet) : String :=
  let formed := groups sheet
  plainLine ("Stylesheet: " ++ name)
    ++ plainLine ("Enabled:    " ++ if isEnabled sheet then "yes" else "no")
    ++ plainLine ("Rules:      " ++ toString sheet.rules.length)
    ++ plainLine ("Groups:     " ++ toString formed.length)
    ++ String.join (formed.map groupLines)

/-- Inspects the stylesheet at a path. -/
def inspectAt (m : Machine) (stylesheet : String) : Finish :=
  let path := Path.ofString stylesheet
  match m.readText path.toString with
  | .error crash => crashed m.tree "" crash
  | .ok source =>
    match Css.parse source with
    | .error e => { exitCode := 1, stderr := plainLine ("Parse error: " ++ e.message), tree := m.tree }
    | .ok sheet => { stdout := summary path.name sheet, tree := m.tree }

/-- The inspect command. -/
def inspect (m : Machine) (args : List String) : Finish :=
  match readArguments inspectOptions true args with
  | .error e => m.unreadable inspectUsage e
  | .ok found =>
    if found.holds () then { stdout := inspectUsage.line, tree := m.tree }
    else
      let checked : Except Refusal String := do
        let stylesheet ← m.checkStylesheet found.arguments.head?
        checkExtra (found.arguments.drop 1)
        return stylesheet
      match checked with
      | .error refusal => m.refusal inspectUsage refusal
      | .ok stylesheet => inspectAt m stylesheet

end Spriting.Command

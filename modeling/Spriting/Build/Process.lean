import Spriting.Background.Group
import Spriting.Build.Event
import Spriting.Build.Marker
import Spriting.Css.Parser
import Spriting.Css.Printer
import Spriting.Emission.Emitter
import Spriting.Sprite.Pack

/-!
# Building a stylesheet

A build reads a stylesheet, groups its images, and packs, emits and places the
groups one after another, the last one first.  The rules that name the sprite
sheets are put in front of the sheet in the order in which they were made.

A sheet that does not ask for sprite sheets comes back as it is, and the first
failure ends the build.
-/

namespace Spriting.Build

open Background Css Emission Files Sprite

/-- How a stylesheet is built. -/
structure Settings where
  emitter : Emitter := {}
  padding : Int := defaultPadding
  debug : Bool := false
  compress : Bool := false

/-- Why a build failed. -/
inductive BuildError where
  | parse (cause : ParseError)
  | pack (cause : PackError)
  | emit (cause : EmitError)
  | place (cause : Dangling)
deriving DecidableEq, Repr

def BuildError.message : BuildError → String
  | parse cause => cause.message
  | pack cause => cause.message
  | emit cause => cause.message
  | place cause => cause.message

/-- What a build notes besides its events. -/
inductive Notice where
  | processing (resource : String)
  | packed (images width height : Nat) (algorithm : String)
  | unplaced (ref : Reference)
deriving DecidableEq, Repr

namespace Notice

def level : Notice → String
  | processing _ => "INFO"
  | packed _ _ _ _ => "DEBUG"
  | unplaced _ => "WARNING"

def message : Notice → String
  | processing resource => "sprite-loader: " ++ resource
  | packed images width height algorithm =>
    "packed " ++ toString images ++ " image(s) into " ++ toString width ++ "x" ++ toString height
      ++ " (" ++ algorithm ++ ")"
  | unplaced ref => skippedMessage ref

/-- The name under which a notice is logged. -/
def logger : Notice → String
  | processing _ => "sprite_loader.engine.loader"
  | packed _ _ _ _ => "sprite_loader.packing.packer"
  | unplaced _ => "sprite_loader.sprites.rewrite"

end Notice

/-- The notice of a packed sheet. -/
def packedNotice (sprite : SpriteFile) (algorithm : String) : Notice :=
  .packed sprite.placements.length sprite.image.width sprite.image.height algorithm

/-- What happens in a build, in order. -/
inductive Report where
  | event (e : Event)
  | notice (n : Notice)
deriving DecidableEq, Repr

/-- Where a build takes place: its settings, its sink, its library of images, the
working directory and the directory from which URLs are resolved. -/
structure Site (σ : Type := Sink) where
  settings : Settings
  sink : σ
  library : Image.Library := .oneWay
  work : Place := []
  base : Path

/-- The directory `context`, seen from the working directory, without any `..`. -/
def baseOf (work : Place) (context : String) : Path :=
  ((⟨1, work⟩ : Path).join (.ofString context)).collapse

/-- The path of an image. -/
def Site.resolve {σ : Type} (site : Site σ) (url : String) : String :=
  (site.base.join (.ofString url)).collapse.toString

/-- A sprite sheet that has been emitted and whose images have been placed. -/
structure Made where
  group : Group
  sprite : SpriteFile
  url : String
  /-- The rule that names the sprite sheet, if any selector shows an image of it. -/
  rule : Option Rule

/-- How far a build has come. -/
structure Progress where
  sheet : Stylesheet
  storage : Storage
  /-- The sprite sheets in the order in which they were made. -/
  made : List Made := []
  reports : List Report := []

namespace Progress

/-- Adds to what has happened. -/
def report (p : Progress) (reports : List Report) : Progress :=
  { p with reports := p.reports ++ reports }

/-- The rules that name the sprite sheets made so far. -/
def rules (p : Progress) : List Rule := p.made.filterMap (·.rule)

/-- The sheet with the rules that name the sprite sheets in front. -/
def finished (p : Progress) : Stylesheet := p.sheet.prepend (p.rules.map .rule)

end Progress

/-- A build of a sheet before its first group. -/
def startOf {σ : Type} (site : Site σ) (storage : Storage) (sheet : Stylesheet)
    (resource : String) : Progress :=
  let formed := groups sheet
  let noted : List Report :=
    if site.settings.debug ∧ formed ≠ [] then [.notice (.processing resource)] else []
  { sheet, storage, reports := .event (.groupsFormed resource formed.length) :: noted }

/-- The event of a packed group. -/
def packedEvent (g : Group) (sprite : SpriteFile) : Event :=
  .groupPacked g.key.ratio.toNat g.key.repeatMode.keyword sprite.placements.length
    sprite.image.width sprite.image.height

/-- Packs the images of a group. -/
def packGroup {σ : Type} (site : Site σ) (tree : FileTree) (g : Group) :
    Except PackError SpriteFile :=
  pack (tree.loadImage site.work site.library) site.settings.padding
    (Layout.algorithmFor g.key.repeatMode) (g.members.map fun ref => site.resolve ref.url)
    site.library

/-- What is reported of a packed group. -/
def packedReports (g : Group) (sprite : SpriteFile) : List Report :=
  [.notice (packedNotice sprite (Layout.algorithmFor g.key.repeatMode).name),
   .event (packedEvent g sprite)]

/-- What is reported of an emitted group, and of its members that were not placed. -/
def emittedReports (url : String) (content : Bytes) (skipped : List Reference) : List Report :=
  .event (.spriteEmitted url content.length) :: skipped.map fun ref => .notice (.unplaced ref)

/-- What is reported of a group that has been placed. -/
def placedReports (url : String) (rule : Option Rule) : List Report :=
  rule.toList.map fun r => .event (.groupPlaced url r.selectors)

variable {σ : Type} [FileSink σ]

/-- Packs, emits and places a group. -/
def buildGroup (site : Site σ) (g : Group) (p : Progress) : Progress × Except BuildError Unit :=
  match packGroup site p.storage.tree g with
  | .error cause => (p, .error (.pack cause))
  | .ok sprite =>
    let packed := p.report (packedReports g sprite)
    match site.settings.emitter.emit site.sink p.storage sprite.content with
    | (storage, .error cause) => ({ packed with storage }, .error (.emit cause))
    | (storage, .ok url) =>
      let placed := placeGroup p.sheet g.members sprite.map url site.resolve
      let emitted := { packed with storage, sheet := placed.sheet }.report
        (emittedReports url sprite.content placed.skipped)
      match placed.result with
      | .error cause => (emitted, .error (.place cause))
      | .ok rule =>
        let made : Made := { group := g, sprite, url, rule }
        ({ emitted with made := emitted.made ++ [made] }.report (placedReports url rule), .ok ())

/-- Builds groups one after another, up to the first that fails. -/
def buildGroups (site : Site σ) : List Group → Progress → Progress × Except BuildError Unit
  | [], p => (p, .ok ())
  | g :: gs, p =>
    match buildGroup site g p with
    | (p', .ok ()) => buildGroups site gs p'
    | failed => failed

/-- Builds the groups of a sheet, the last one first. -/
def runGroups (site : Site σ) (storage : Storage) (sheet : Stylesheet) (resource : String) :
    Progress × Except BuildError Unit :=
  buildGroups site (groups sheet).reverse (startOf site storage sheet resource)

/-- What a build leaves behind. -/
structure Outcome where
  result : Except BuildError String
  reports : List Report
  storage : Storage

/-- The form in which a build writes its sheet. -/
def Settings.style (s : Settings) : Style := if s.compress then .compressed else .pretty "  "

/-- Builds a sheet and writes it. -/
def buildSheet (site : Site σ) (storage : Storage) (sheet : Stylesheet) (resource : String) :
    Outcome :=
  match runGroups site storage sheet resource with
  | (p, .error cause) => ⟨.error cause, p.reports, p.storage⟩
  | (p, .ok ()) =>
    ⟨.ok (p.finished.render site.settings.style),
      p.reports ++ [.event (.completed resource p.rules.length)], p.storage⟩

/-- Builds a source, without the events at its ends. -/
def buildSource (site : Site σ) (storage : Storage) (source resource : String) : Outcome :=
  match parse source with
  | .error cause => ⟨.error (.parse cause), [], storage⟩
  | .ok sheet =>
    if isEnabled sheet then buildSheet site storage sheet resource
    else ⟨.ok source, [.event (.skipped resource)], storage⟩

/-- Builds a source. -/
def process (site : Site σ) (storage : Storage) (source resource : String) : Outcome :=
  let outcome := buildSource site storage source resource
  let ending : List Report :=
    match outcome.result with
    | .ok _ => []
    | .error cause => [.event (.failed resource cause.message)]
  { outcome with reports := .event (.started resource) :: outcome.reports ++ ending }

/-- The events among reports. -/
def eventsOf (reports : List Report) : List Event :=
  reports.filterMap fun
    | .event e => some e
    | .notice _ => none

/-- The notices among reports. -/
def noticesOf (reports : List Report) : List Notice :=
  reports.filterMap fun
    | .event _ => none
    | .notice n => some n

/-- How a build calls a sheet that has no name. -/
def namelessResource : String := "<stylesheet>"

end Spriting.Build

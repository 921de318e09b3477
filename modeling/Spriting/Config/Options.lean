import Spriting.Config.Value
import Spriting.Emission.Emitter
import Spriting.Sprite.Pack

/-!
# Options of a build

Options come as a mapping from names to values.  Every field has a name in camel
case and one in snake case; where a field is given under both, the entry that
stands later in the mapping counts.

A name that belongs to no field is refused before any value is looked at.
-/

namespace Spriting.Config

/-- The fields that options can set. -/
inductive Field where
  | outputPath
  | cssImagePath
  | publicPath
  | name
  | debug
  | padding
  | compress
  | filenameTemplate
  | hashType
deriving DecidableEq, Repr

/-- The names of the fields. -/
def fieldNames : List (String × Field) :=
  [("outputPath", .outputPath), ("output_path", .outputPath),
   ("cssImagePath", .cssImagePath), ("css_image_path", .cssImagePath),
   ("publicPath", .publicPath), ("public_path", .publicPath),
   ("name", .name), ("debug", .debug), ("padding", .padding), ("compress", .compress),
   ("filenameTemplate", .filenameTemplate), ("filename_template", .filenameTemplate),
   ("hashType", .hashType), ("hash_type", .hashType)]

/-- A mapping from names to values, in the order of the names' first use. -/
abbrev Options := List (String × Value)

/-- Gives a name its value, in the place of an earlier one. -/
def Options.put (options : Options) (name : String) (value : Value) : Options :=
  match options with
  | [] => [(name, value)]
  | (old, kept) :: rest =>
    if old = name then (name, value) :: rest else (old, kept) :: Options.put rest name value

/-- The mapping that assignments make one after another. -/
def Options.ofList (assignments : List (String × Value)) : Options :=
  assignments.foldl (fun options p => Options.put options p.1 p.2) []

/-- Why options are refused. -/
inductive OptionError where
  | unknown (name : String)
  | padding (cause : ValueError)
deriving DecidableEq, Repr

end Spriting.Config

namespace Spriting

open Config

/-- How a build is run.  Values that are used as text are kept as they are given. -/
structure Config where
  outputPath : Value := .text ""
  cssImagePath : Value := .text ""
  publicPath : Value := .text ""
  name : Value := .null
  debug : Bool := false
  padding : Int := Sprite.defaultPadding
  filenameTemplate : Value := .text Emission.defaultTemplate
  hashType : Value := .text Emission.defaultHashType
  compress : Bool := false

namespace Config

/-- The value that options give to a field. -/
def given (options : Options) (field : Field) : Option Value :=
  (options.reverse.find? fun p => fieldNames.lookup p.1 = some field).map (·.2)

/-- The configuration that options ask for. -/
def ofOptions (options : Options) : Except OptionError Config :=
  match options.find? fun p => (fieldNames.lookup p.1).isNone with
  | some (name, _) => .error (.unknown name)
  | none =>
    let padding : Except ValueError Int :=
      match given options .padding with
      | some value => value.toInt
      | none => .ok Sprite.defaultPadding
    match padding with
    | .error cause => .error (.padding cause)
    | .ok padding =>
      let start : Config := {}
      .ok
        { outputPath := (given options .outputPath).getD start.outputPath
          cssImagePath := (given options .cssImagePath).getD start.cssImagePath
          publicPath := (given options .publicPath).getD start.publicPath
          name := (given options .name).getD start.name
          debug := ((given options .debug).map Value.isTrue).getD start.debug
          padding
          filenameTemplate := (given options .filenameTemplate).getD start.filenameTemplate
          hashType := (given options .hashType).getD start.hashType
          compress := ((given options .compress).map Value.isTrue).getD start.compress }

/-- What stands before the name of an image in a URL. -/
def imageUrlPrefix (c : Config) : Value :=
  if c.cssImagePath.isTrue then c.cssImagePath else c.publicPath

/-- The emitter of a build. -/
def emitter (c : Config) : Emission.Emitter where
  outputPath := c.outputPath
  urlPrefix := c.imageUrlPrefix
  template := c.filenameTemplate
  hashType := c.hashType

namespace OptionError

def message : OptionError → String
  | unknown name => "Unknown sprite-loader option: " ++ Text.quoted name
  | padding cause => cause.message

end OptionError

end Config

end Spriting

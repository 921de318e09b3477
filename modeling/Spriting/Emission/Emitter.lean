import Spriting.Config.Value
import Spriting.Digest.Kind
import Spriting.Emission.Sink
import Spriting.Emission.Template

/-!
# Emitting sprite sheets

An emitter names an image after its contents, hands it to a sink, and answers
the URL under which a stylesheet finds it.

Its settings are values as they were given.  One that is no text is found out
where it is used, so that a bad URL prefix leaves the file behind.
-/

namespace Spriting.Emission

open Config Files

/-- The name of the digest where none is asked for. -/
def defaultHashType : String := "md5"

structure Emitter where
  /-- What stands before the name of a file in the sink. -/
  outputPath : Value := .text ""
  /-- What stands before the name of a file in a URL. -/
  urlPrefix : Value := .text ""
  template : Value := .text defaultTemplate
  hashType : Value := .text defaultHashType

/-- What an emitter needs a text for. -/
inductive TextUse where
  | digestName
  | template
  /-- To stand before the name of a file. -/
  | lead
deriving DecidableEq, Repr

/-- What is said about a value of the wrong kind. -/
def TextUse.complaint (kind : String) : TextUse → String
  | digestName =>
    if kind = "list" ∨ kind = "dict" then "unhashable type: " ++ Text.quoted kind
    else "name must be a string"
  | template => "expected string or bytes-like object, got " ++ Text.quoted kind
  | lead =>
    if kind = "list" then "can only concatenate list (not \"str\") to list"
    else "unsupported operand type(s) for +: " ++ Text.quoted kind ++ " and 'str'"

/-- Why an image could not be emitted. -/
inductive EmitError where
  | wrongKind (use : TextUse) (kind : String)
  | unsupported (hashType : String)
  /-- The digest has no length of its own. -/
  | endless
  | count (cause : Text.NumeralError)
  /-- The sink refuses the file with an error of the operating system. -/
  | unwritable (target : String) (cause : WriteError)
  /-- The sink refuses the file in another way. -/
  | refused (cause : WriteError)
deriving DecidableEq, Repr

namespace EmitError

def message : EmitError → String
  | wrongKind use kind => use.complaint kind
  | unsupported hashType => "Unsupported hash type: " ++ Text.quoted hashType
  | endless => "hexdigest() missing required argument 'length' (pos 1)"
  | count cause => cause.message ""
  | unwritable target cause => "Cannot write sprite " ++ target ++ ": " ++ cause.message
  | refused cause => cause.message

/-- The error of a file that a sink has refused. -/
def ofRefusal (target : String) (cause : WriteError) : EmitError :=
  if cause.isSystem then unwritable target cause else refused cause

end EmitError

/-- The text that a value is. -/
def TextUse.text (use : TextUse) : Value → Except EmitError String
  | .text s => .ok s
  | value => .error (.wrongKind use value.kind)

/-- The digest of contents under a name, as a name shows it. -/
def digestOf (hashType : String) (content : Bytes) : Except EmitError String :=
  if holdsNul hashType then .error (.wrongKind .digestName (Value.text hashType).kind)
  else match Digest.Kind.ofName? hashType with
    | none => .error (.unsupported hashType)
    | some kind =>
      match kind.bytes? content with
      | some bytes => .ok (Digest.hex bytes)
      | none => .error .endless

namespace Emitter

/-- The name that an emitter gives to contents. -/
def nameOf (e : Emitter) (content : Bytes) : Except EmitError String := do
  let digest ← digestOf (← TextUse.digestName.text e.hashType) content
  let template ← TextUse.template.text e.template
  (expand template digest).mapError .count

/-- The name of contents in a URL, and under which they go to the sink. -/
def targetOf (e : Emitter) (content : Bytes) : Except EmitError (String × String) := do
  let name ← e.nameOf content
  return (name, (← TextUse.lead.text e.outputPath) ++ name)

/-- Writes contents to a sink and answers their URL. -/
def emit {σ : Type} [FileSink σ] (e : Emitter) (sink : σ) (storage : Storage) (content : Bytes) :
    Storage × Except EmitError String :=
  match e.targetOf content with
  | .error cause => (storage, .error cause)
  | .ok (name, target) =>
    match FileSink.write sink storage target content with
    | (storage', .ok ()) => (storage', (TextUse.lead.text e.urlPrefix).map (· ++ name))
    | (storage', .error cause) => (storage', .error (.ofRefusal target cause))

end Emitter

end Spriting.Emission

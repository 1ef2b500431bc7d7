/-
**Reading configs.**

A config is a JSON object with a list under `data`. Its namespace, its output format and the names
and the stage of an entry may be absent or null, or else are text; the two shader paths of an entry
are text and must be there. Of several faults the one in the field with the least name is reported,
a missing shader path last.

* `ConfigFault.message`: the texts of the faults;
* `ConfigEntry.ofJson`, `ConfigFile.ofJson`: a value as an entry or a config;
* `ConfigFile.parse`: the text of a config.
-/

import ShaderForge.Config.Basic
import ShaderForge.Json.Reader
import ShaderForge.Text.Debugging

namespace ShaderForge

/-! ## Part 1 — faults -/

/-- What a value should have been. -/
inductive Expected
  | text
  | entry
deriving DecidableEq

/-- Why a text is no config. -/
inductive ConfigFault
  | unreadable
  | dataNotList
  | wrongKind (found : Json) (expected : Expected)
  | missing (field : String)
  | badPath (path : String)

/-- What a value is, in a message. -/
def Json.described : Json → String
  | .null => "null"
  | .bool true => "boolean `true`"
  | .bool false => "boolean `false`"
  | .number (.integer value) =>
    "integer `" ++ String.ofList (Json.writtenNumber (.integer value)) ++ "`"
  | .number (.real value) =>
    "floating point `" ++ String.ofList (Json.writtenNumber (.real value)) ++ "`"
  | .text content => "string " ++ Text.quotedPlainly content
  | .list _ => "sequence"
  | .object _ => "map"

/-- What was expected, in a message. -/
def Expected.described : Expected → String
  | .text => "a string"
  | .entry => "struct ConfigEntry"

/-- The text of a fault. A text that is no JSON is reported without its details. -/
def ConfigFault.message : ConfigFault → String
  | .unreadable => "<json syntax>"
  | .dataNotList => "\"data\" is not a list"
  | .wrongKind found expected =>
    "invalid type: " ++ found.described ++ ", expected " ++ expected.described
  | .missing field => "missing field `" ++ field ++ "`"
  | .badPath path => "bad path '" ++ path ++ "'"

/-! ## Part 2 — fields -/

/-- A field that may be absent or null. -/
def optionalText (fields : List (String × Json)) (name : String) :
    Except ConfigFault (Option String) :=
  match fields.lookup name with
  | none => pure none
  | some .null => pure none
  | some (.text content) => pure (some content)
  | some other => throw (.wrongKind other .text)

/-- A field that is text, if it is there. -/
def presentText (fields : List (String × Json)) (name : String) :
    Except ConfigFault (Option String) :=
  match fields.lookup name with
  | none => pure none
  | some (.text content) => pure (some content)
  | some other => throw (.wrongKind other .text)

/-- A field that must have been there. -/
def required (name : String) : Option String → Except ConfigFault String
  | none => throw (.missing name)
  | some content => pure content

/-- The fields whose names are not known. -/
def unknownFields (known : List String) (fields : List (String × Json)) : List (String × Json) :=
  fields.filter fun field => !known.contains field.1

/-- The known fields of an entry. -/
def ConfigEntry.knownFields : List String := ["className", "fileName", "fsh", "stage", "vsh"]

/-- The known fields of a config. -/
def ConfigFile.knownFields : List String := ["data", "namespace", "outputFormat"]

/-! ## Part 3 — values -/

/-- **An entry from a value.** -/
def ConfigEntry.ofJson : Json → Except ConfigFault ConfigEntry
  | .object fields => do
    let className ← optionalText fields "className"
    let fileName ← optionalText fields "fileName"
    let fragment? ← presentText fields "fsh"
    let stage ← optionalText fields "stage"
    let vertex? ← presentText fields "vsh"
    let vertex ← required "vsh" vertex?
    let fragment ← required "fsh" fragment?
    pure { fileName, className, vertex, fragment, stage
           extra := unknownFields ConfigEntry.knownFields fields }
  | other => throw (.wrongKind other .entry)

/-- The entries of a list, in order; the first fault ends it. -/
def ConfigEntry.listOfJson : List Json → Except ConfigFault (List ConfigEntry)
  | [] => pure []
  | item :: items => do
    let entry ← ConfigEntry.ofJson item
    let entries ← ConfigEntry.listOfJson items
    pure (entry :: entries)

/-- **A config from a value.** -/
def ConfigFile.ofJson (value : Json) : Except ConfigFault ConfigFile :=
  match value with
  | .object fields =>
    match fields.lookup "data" with
    | some (.list items) => do
      let entries ← ConfigEntry.listOfJson items
      let space ← optionalText fields "namespace"
      let outputFormat ← optionalText fields "outputFormat"
      pure { space, outputFormat, entries, extra := unknownFields ConfigFile.knownFields fields }
    | _ => throw .dataNotList
  | _ => throw .dataNotList

/-- **A config from its text.** -/
def ConfigFile.parse (text : String) : Except ConfigFault ConfigFile :=
  match Json.read text with
  | none => throw .unreadable
  | some value => ConfigFile.ofJson value

end ShaderForge

/-
**Configs.**

A config names the shaders of a job: a namespace, an output format, and entries, each of which pairs
a vertex shader with a fragment shader. Fields that this program does not know are kept with their
values, at the top and in every entry, and are written out again.

* `ConfigFile.declaredFormat?`: the output format, when it is not blank;
* `ConfigEntry.matching?`: the shader of an entry that has a given file name, and the other one;
* `ConfigFile.narrowed`: the config with one entry only;
* `ConfigFile.render`: the text of a config.
-/

import ShaderForge.Json.Printer
import ShaderForge.Path.Basic
import ShaderForge.Text.Ascii
import ShaderForge.Text.Blank

namespace ShaderForge

/-! ## Part 1 — entries -/

/-- One shader of a config: its two sources, and what is said about it. -/
structure ConfigEntry where
  fileName : Option String
  className : Option String
  vertex : String
  fragment : String
  stage : Option String
  extra : List (String × Json)

/-- The file name at the end of a shader path. -/
def baseName? (path : String) : Option String := Path.fileName? ⟨path⟩

namespace ConfigEntry

/-- The shader paths of an entry, the vertex shader first. -/
def shaderPaths (entry : ConfigEntry) : List String := [entry.vertex, entry.fragment]

/-- **The path of an entry with a given file name, and the other path.** The vertex shader counts
first. -/
def matching? (entry : ConfigEntry) (fileName : String) : Option (String × String) :=
  if baseName? entry.vertex = some fileName then some (entry.vertex, entry.fragment)
  else if baseName? entry.fragment = some fileName then some (entry.fragment, entry.vertex)
  else none

/-- The entry with both paths changed. -/
def mapPaths (change : String → String) (entry : ConfigEntry) : ConfigEntry :=
  { entry with vertex := change entry.vertex, fragment := change entry.fragment }

/-- A field that may be absent. -/
def optionalField (name : String) : Option String → List (String × Json)
  | none => []
  | some text => [(name, .text text)]

/-- An entry as a value: the known fields in their order, then the others. -/
def toJson (entry : ConfigEntry) : Json :=
  .object (optionalField "fileName" entry.fileName ++ optionalField "className" entry.className
    ++ [("vsh", .text entry.vertex), ("fsh", .text entry.fragment)]
    ++ optionalField "stage" entry.stage ++ entry.extra)

end ConfigEntry

/-! ## Part 2 — configs -/

/-- **A config.** -/
structure ConfigFile where
  space : Option String
  outputFormat : Option String
  entries : List ConfigEntry
  extra : List (String × Json)

namespace ConfigFile

/-- The output format that a config declares, trimmed; a blank one declares nothing. -/
def declaredFormat? (config : ConfigFile) : Option String :=
  (config.outputFormat.map Text.trim).filter fun format => !format.isEmpty

/-- A config with nothing but one entry. -/
def narrowed (config : ConfigFile) (entry : ConfigEntry) : ConfigFile :=
  { config with entries := [entry] }

/-- A config as a value: the known fields in their order, then the others. -/
def toJson (config : ConfigFile) : Json :=
  .object (ConfigEntry.optionalField "namespace" config.space
    ++ ConfigEntry.optionalField "outputFormat" config.outputFormat
    ++ [("data", .list (config.entries.map ConfigEntry.toJson))] ++ config.extra)

/-- **The text of a config.** -/
def render (config : ConfigFile) : String := config.toJson.render

end ConfigFile

/-! ## Part 3 — names -/

/-- The end of a config's name, in lower case. -/
def configSuffix : String := ".sl.json"

/-- The ends of a shader's name, in lower case. -/
def shaderSuffixes : List String := [".vert", ".frag", ".glsl"]

/-- Whether a name is that of a config. -/
def isConfigName (name : String) : Bool := Text.endsIgnoringCase configSuffix name

/-- Whether a name is that of a shader. -/
def isShaderName (name : String) : Bool :=
  shaderSuffixes.any fun suffix => Text.endsIgnoringCase suffix name

/-- Whether a shader path begins by leaving the config's directory. -/
def referencesParent (path : String) : Bool := Path.leavesFirst ⟨path⟩

end ShaderForge

/-
**New shaders.**

A new shader is a directory with a config and two shaders that are ready to compile, all with the
name of the directory. Nothing that is there already is written over.

* `Template.filesFor`: the places of the files;
* `Template.create`: the directory and the files, made.
-/

import ShaderForge.JobError
import ShaderForge.Text.Capital
import ShaderForge.World.Change

namespace ShaderForge

namespace Template

/-! ## Part 1 — what is written -/

/-- The end of the name of a new vertex shader. -/
def vertexSuffix : String := ".spv.vert"

/-- The end of the name of a new fragment shader. -/
def fragmentSuffix : String := ".spv.frag"

/-- Lines, each with its end. -/
def textOf (lines : List String) : String := String.join (lines.map (· ++ "\n"))

/-- A vertex shader that covers the screen. -/
def vertexShader : String := textOf [
  "#version 450",
  "layout(location = 0) in vec2 a_position;",
  "layout(location = 0) out vec2 v_uv;",
  "",
  "void main() \x7b",
  "    v_uv = a_position * 0.5 + vec2(0.5);",
  "    gl_Position = vec4(a_position, 0.0, 1.0);",
  "\x7d"]

/-- A fragment shader that shows a texture. -/
def fragmentShader : String := textOf [
  "#version 450",
  "layout(location = 0) in vec2 v_uv;",
  "layout(location = 0) out vec4 outColor;",
  "",
  "layout(binding = 0) uniform sampler2D inputImageTexture;",
  "",
  "void main() \x7b",
  "    outColor = texture(inputImageTexture, v_uv);",
  "\x7d"]

/-- The config of a new shader. -/
def config (name : String) : ConfigFile where
  space := some "StarLight"
  outputFormat := some "ts"
  entries := [{
    fileName := some name
    className := some (Text.bigCamel name)
    vertex := name ++ vertexSuffix
    fragment := name ++ fragmentSuffix
    stage := some "both"
    extra := [] }]
  extra := []

/-! ## Part 2 — where it is written -/

/-- Whether a text can be the name of a shader. -/
def isShaderTitle (name : String) : Bool :=
  !name.isEmpty && name.toList.all (fun c => c != '/' && c != '\\') && name != "." && name != ".."

/-- **The files of a new shader**, and their directory. -/
structure Files where
  directory : Path
  config : Path
  vertex : Path
  fragment : Path

/-- The places of the files of a new shader. -/
def filesFor (base : Path) (name : String) : Files :=
  let directory := base.below name
  { directory
    config := directory.below (name ++ configSuffix)
    vertex := directory.below (name ++ vertexSuffix)
    fragment := directory.below (name ++ fragmentSuffix) }

/-- The directory meant by a path: that of a file is its parent. -/
def baseOf (world : World) (path : Path) : Path :=
  if world.isFile path then path.parent?.getD ⟨"."⟩ else path

/-! ## Part 3 — writing -/

/-- A new file with a text. -/
def writeText (path : Path) (text : String) : Disk Unit :=
  Disk.change fun world => world.writeNew path text.toUTF8

/-- The directory and the files of a new shader. -/
def writeFiles (name : String) (files : Files) : Disk Unit := do
  Disk.makeDirectories files.directory
  writeText files.config (config name).render
  writeText files.vertex vertexShader
  writeText files.fragment fragmentShader

/-- **A new shader in a directory**; the world after it is given also when it fails. -/
def create (path : Path) (title : String) (world : World) : Except JobError Files × World :=
  let name := Text.trim title
  if !isShaderTitle name then (.error (.invalidName name), world)
  else
    let files := filesFor (baseOf world path) name
    let (outcome, after) := (writeFiles name files).run.run world
    ((liftIo outcome).map fun _ => files, after)

end Template

end ShaderForge

/-
**What a job works on.**

A job works on a whole directory, on one config, or on one shader together with the config that owns
it. A shader is owned by the first entry that names it in the configs of the directories above it,
the nearest directory first; the other shader of that entry is its companion.

* `JobInput`: the three shapes;
* `owner?`: the owner of a shader;
* `JobInput.resolve`: the shape that a path is meant as, checked;
* `JobInput.configFiles`, `JobInput.primaryConfig`: the configs that are compiled, and the one that
  findings without a place belong to.
-/

import ShaderForge.Discovery

namespace ShaderForge

/-! ## Part 1 — shapes -/

/-- **A shader and what owns it.** -/
structure ShaderTarget where
  root : Path
  shader : Path
  configPath : Path
  config : ConfigFile
  entry : ConfigEntry
  companion : Path

/-- **What a job works on.** -/
inductive JobInput
  | directory (root : Path)
  | config (root config : Path)
  | shader (target : ShaderTarget)

namespace JobInput

/-- The directory that a job works in. -/
def root : JobInput → Path
  | directory root => root
  | config root _ => root
  | shader target => target.root

/-- **The configs that a job compiles**, in order. -/
def configFiles (world : World) : JobInput → List Path
  | directory root => (discoverConfigs world root).map root.join
  | config _ path => [path]
  | shader target => [target.configPath]

/-- The config that findings without a place belong to: the first one. -/
def primaryConfig (world : World) (input : JobInput) : Except JobError Path :=
  match input.configFiles world with
  | [] => throw (.invalidInput input.root)
  | first :: _ => pure first

end JobInput

/-! ## Part 2 — owners -/

/-- The configs in a directory itself, in order. -/
def immediateConfigs (world : World) (directory : Path) : List Path :=
  match world.entriesIn directory with
  | .error _ => []
  | .ok entries =>
    Path.inOrder ((entries.filter fun (name, node) =>
      node.isFile && isConfigName name.text).map fun (name, _) => directory.below name.text)

/-- The first entry of a config that names a shader, with the path of the other shader. -/
def entryFor? (config : ConfigFile) (fileName : String) : Option (ConfigEntry × String) :=
  config.entries.findSome? fun entry =>
    (entry.matching? fileName).map fun (_, sibling) => (entry, sibling)

/-- The owner of a shader among the configs of one directory; a config that cannot be read does not
count. -/
def ownerAmong? (world : World) (shader directory : Path) (fileName : String)
    (configs : List Path) : Option ShaderTarget :=
  configs.findSome? fun configPath => do
    let config ← (ConfigFile.load world configPath).toOption
    let (entry, sibling) ← entryFor? config fileName
    let companion := directory.below sibling
    pure { root := directory, shader, configPath, config, entry, companion }

/-- The directories that may own a shader, nearest first. -/
def owningDirectories (shader : Path) : List Path :=
  shader.parents.takeWhile fun path => !path.isEmpty

/-- **The owner of a shader**, if there is one. -/
def owner? (world : World) (shader : Path) : Except JobError (Option ShaderTarget) :=
  match shader.fileName? with
  | none => throw (.invalidInput shader)
  | some fileName =>
    pure ((owningDirectories shader).findSome? fun directory =>
      ownerAmong? world shader directory fileName (immediateConfigs world directory))

/-! ## Part 3 — resolving -/

/-- A config can be worked on if one of its shaders is there, or its directory has any. -/
def validateConfig (world : World) (config root : Path) : Except JobError Unit := do
  let file ← ConfigFile.load world config
  if (file.entries.flatMap ConfigEntry.shaderPaths).any fun path => world.isFile (root.below path)
  then pure ()
  else validateRoot world root

/-- The directory of a file; that of a bare name is `.`. -/
def directoryOf (path : Path) : Path :=
  (path.parent?.filter fun parent => !parent.isEmpty).getD ⟨"."⟩

namespace JobInput

/-- What a file is meant as. -/
def resolveFile (world : World) (path : Path) : Except JobError JobInput :=
  match path.fileName? with
  | none => throw (.invalidInput path)
  | some name =>
    let parent := directoryOf path
    if isConfigName name then do
      validateConfig world path parent
      pure (.config parent path)
    else if isShaderName name then do
      match ← owner? world path with
      | none => throw (.invalidInput path)
      | some target =>
        if world.isFile target.companion then pure (.shader target)
        else throw (.invalidInput target.companion)
    else do
      validateRoot world parent
      pure (.directory parent)

/-- **What a path is meant as**: a directory, a config, a shader with its owner, or, for any other
file, the directory that it is in. -/
def resolve (world : World) (path : Path) : Except JobError JobInput :=
  match world.find? path with
  | none => throw (.invalidInput path)
  | some (_, .directory) => do
    validateRoot world path
    pure (.directory path)
  | some (_, .file _) => resolveFile world path

end JobInput

end ShaderForge

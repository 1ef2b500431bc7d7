/-
**What goes into an archive.**

The service is sent an archive of named entries, whose bytes are those of a file or are made up
here.

* A *shader* is sent as three entries: its config with nothing but the entry that owns it, both
  paths shortened to base names; the shader; its companion.
* A *config* is sent with every shader below its root. A shader path that begins with `..` names a
  file outside of the root: that file is brought in under its base name, and the config is sent with
  the shortened path. A config without such paths is sent as it is.
* A *directory* is sent with every config and shader in it.

Of several entries with one name the first is kept.

* `JobInput.candidates`: all entries, in order;
* `JobInput.plan`: the entries that are sent.
-/

import ShaderForge.Input.Basic

namespace ShaderForge

/-! ## Part 1 — entries -/

/-- Where the bytes of an entry come from. -/
inductive EntrySource
  | file (path : Path)
  | bytes (content : ByteArray)

/-- **One entry of an archive.** -/
structure ArchiveEntry where
  name : String
  source : EntrySource

/-- The name of an archive that is sent. -/
def archiveName : String := "starlight_input.zip"

/-- The name of the config that is sent with a single shader. -/
def canonicalName : String := "index.sl.json"

/-- Entries without those whose name an earlier one has. -/
def firstOfEachName : List ArchiveEntry → List ArchiveEntry
  | [] => []
  | entry :: rest => entry :: (firstOfEachName rest).filter fun other => other.name ≠ entry.name

/-- The name under which a path below the root is filed. -/
def filedName (path : Path) : String := "/".intercalate path.names

/-- Files below a root as entries. -/
def filed (root : Path) (paths : List Path) : List ArchiveEntry :=
  paths.map fun path => ⟨filedName path, .file (root.join path)⟩

/-- The file name of a path, which must have one. -/
def fileNameOf (path : Path) : Except JobError String :=
  match path.fileName? with
  | none => throw (.invalidInput path)
  | some name => pure name

/-! ## Part 2 — a single shader -/

/-- A shader path shortened to its base name, if it has one. -/
def shortened (path : String) : String := (baseName? path).getD path

/-- The config that is sent with a single shader. -/
def ShaderTarget.ownConfig (target : ShaderTarget) : ConfigFile :=
  target.config.narrowed (target.entry.mapPaths shortened)

/-- The entries for a single shader. -/
def ShaderTarget.candidates (target : ShaderTarget) : Except JobError (List ArchiveEntry) := do
  let shaderName ← fileNameOf target.shader
  let companionName ← fileNameOf target.companion
  pure [⟨canonicalName, .bytes target.ownConfig.render.toUTF8⟩,
    ⟨shaderName, .file target.shader⟩, ⟨companionName, .file target.companion⟩]

/-! ## Part 3 — a config -/

/-- A shader path as it is sent, with the entry that it brings in. -/
def flattenPath (world : World) (root configPath : Path) (path : String) :
    Except JobError (String × List ArchiveEntry) :=
  if !referencesParent path then pure (path, [])
  else match baseName? path with
    | none => throw (.invalidConfig configPath (.badPath path))
    | some name =>
      match world.read (root.below path) with
      | .error fault => throw (.io fault)
      | .ok content => pure (name, [⟨name, .bytes content⟩])

/-- An entry of a config as it is sent, with what its paths bring in. -/
def flattenEntry (world : World) (root configPath : Path) (entry : ConfigEntry) :
    Except JobError (ConfigEntry × List ArchiveEntry) := do
  let (vertex, first) ← flattenPath world root configPath entry.vertex
  let (fragment, second) ← flattenPath world root configPath entry.fragment
  pure ({ entry with vertex, fragment }, first ++ second)

/-- The entries of a config as they are sent, with all that they bring in. -/
def flattenEntries (world : World) (root configPath : Path) :
    List ConfigEntry → Except JobError (List ConfigEntry × List ArchiveEntry)
  | [] => pure ([], [])
  | entry :: rest => do
    let (flat, brought) ← flattenEntry world root configPath entry
    let (flats, others) ← flattenEntries world root configPath rest
    pure (flat :: flats, brought ++ others)

/-- The bytes of a config: its own file, or the changed config if paths were shortened. -/
def configSource (configPath : Path) (config : ConfigFile) (entries : List ConfigEntry)
    (brought : List ArchiveEntry) : EntrySource :=
  if brought.isEmpty then .file configPath
  else .bytes { config with entries }.render.toUTF8

/-- The entries for a config. -/
def configCandidates (world : World) (root configPath : Path) :
    Except JobError (List ArchiveEntry) := do
  let config ← ConfigFile.load world configPath
  let name ← fileNameOf configPath
  let (entries, brought) ← flattenEntries world root configPath config.entries
  pure (brought ++ ⟨name, configSource configPath config entries brought⟩
    :: filed root (discoverShaders world root))

/-! ## Part 4 — plans -/

namespace JobInput

/-- All entries for what a job works on, in order. -/
def candidates (world : World) : JobInput → Except JobError (List ArchiveEntry)
  | shader target => target.candidates
  | config root path => configCandidates world root path
  | directory root => pure (filed root (discoverFiles world root))

/-- **The entries that are sent** for what a job works on. -/
def plan (world : World) (input : JobInput) : Except JobError (List ArchiveEntry) :=
  (input.candidates world).map firstOfEachName

end JobInput

end ShaderForge

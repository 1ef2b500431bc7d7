/-
**The program on a computer.**

What the program says and does is decided by `run`, on a world of files. This module reads from
the disk what that answer can depend on, asks the user when the answer does, prints, and stores the
files that changed. A question is found by running with an answer left out; once it is answered the
program runs again, and does the same up to there.

The program starts no other programs and opens no connections itself: a job ends where it would have
to.
-/

import ShaderForge.CommandLine.Run
import ShaderForge.Job.Script
import ShaderForge.World.Difference

namespace ShaderForge.CommandLine

/-! ## Part 1 — the environment -/

/-- The variable that a text with an equals sign defines. -/
def definition (text : List Char) : String × String :=
  let (name, value) := cutValue text
  (name, value.getD "")

/-- The variables of this program, from the file that the system keeps them in. -/
def readEnvironment : IO Environment := do
  match ← (IO.FS.readBinFile "/proc/self/environ").toBaseIO with
  | .error _ => pure ⟨[], none⟩
  | .ok bytes =>
    let texts := Text.pieces (Char.ofNat 0) (Text.decodeLossy bytes).toList
    pure ⟨(texts.filter (· ≠ [])).map definition, none⟩

/-! ## Part 2 — the disk -/

/-- A world after an action that may fail. -/
def after (action : Disk Unit) (world : World) : World := (action.run.run world).2

/-- A world with a directory. -/
def withDirectory (path : String) (world : World) : World :=
  after (Disk.makeDirectories ⟨path⟩) world

/-- A world with a file of the disk, if it can be read. -/
def loadFile (world : World) (path : String) : IO World := do
  match ← (IO.FS.readBinFile path).toBaseIO with
  | .error _ => pure world
  | .ok bytes =>
    let directory := (Path.parent? ⟨path⟩).elim "/" Path.text
    pure (after (Disk.write ⟨path⟩ bytes) (withDirectory directory world))

/-- The names in a directory of the disk. -/
def namesOnDisk (directory : String) : IO (List String) := do
  match ← (IO.FS.DirEntry.path ⟨directory, "."⟩).readDir.toBaseIO with
  | .error _ => pure []
  | .ok entries => pure (entries.toList.map IO.FS.DirEntry.fileName)

/-- The kind of what a path of the disk leads to, links not followed. -/
def kindOnDisk (path : Path) : IO (Option IO.FS.FileType) := do
  let directory := path.parent?.elim "/" Path.text
  match ← (IO.FS.DirEntry.path ⟨directory, path.fileName?.getD "."⟩).symlinkMetadata.toBaseIO with
  | .error _ => pure none
  | .ok found => pure (some found.type)

/-- A world with what a path of the disk leads to and all that is below it. -/
partial def loadAll (world : World) (path : Path) : IO World := do
  match ← kindOnDisk path with
  | some .dir =>
    (← namesOnDisk path.text).foldlM (fun world name => loadAll world (path.below name))
      (withDirectory path.text world)
  | some .file => loadFile world path.text
  | _ => pure world

/-- A world with the configs in a directory of the disk. -/
def loadConfigs (world : World) (directory : Path) : IO World := do
  let names := (← namesOnDisk directory.text).filter isConfigName
  names.foldlM (fun world name => loadFile world (directory.below name).text) world

/-- A world with the shaders that a config refers to. -/
def loadShaders (world : World) (config : Path) : IO World :=
  match ConfigFile.load world config, config.parent? with
  | .ok file, some directory =>
    (file.entries.flatMap ConfigEntry.shaderPaths).foldlM (fun world path =>
      loadFile world (directory.below path).text) world
  | _, _ => pure world

/-! ## Part 3 — what a command depends on -/

/-- A world with what a job on a path depends on: the directory that it works in, the configs in and
above it, and the shaders that these refer to. -/
def loadJob (world : World) (path : Path) : IO World := do
  let directory := if (← kindOnDisk path) == some .dir then path else directoryOf path
  let world ← loadAll world directory
  let above := directory.parents.filter fun parent => !parent.isEmpty
  let world ← above.foldlM loadConfigs world
  let inside := (discoverConfigs world directory).map directory.join
  (inside ++ above.flatMap (immediateConfigs world)).foldlM loadShaders world

/-- A world with what a command depends on. -/
def loadFor (resolver : Resolver) (world : World) : Command → IO World
  | .generate path _ _ =>
    match resolver.absolute path with
    | .error _ => pure world
    | .ok place => loadJob world place
  | .new directory name => do
    let place := (resolver.cwd.join ⟨directory⟩).below name
    let files ← place.parents.filterM fun parent => return (← kindOnDisk parent) == some .file
    let world ← files.foldlM (fun world file => loadFile world file.text) world
    loadAll world place
  | .locate _ => pure world

/-- The world that the program with its arguments runs in. -/
def loadWorld (resolver : Resolver) (arguments : List String) : IO World := do
  let bare := withDirectory resolver.cwd.text World.bare
  let cwd := ((bare.find? resolver.cwd).map Prod.fst).getD []
  let settings := (settingsFile? resolver.environment).elim "" Path.text
  let world ← loadFile { bare with cwd } settings
  match Command.parse resolver.environment arguments with
  | .error _ => pure world
  | .ok command => loadFor resolver world command

/-! ## Part 4 — running -/

/-- The surroundings of the program, with what was typed if there is a terminal. -/
def surroundings (resolver : Resolver) (terminal : Option String) : Surroundings where
  resolver
  terminal
  token := .never
  compiler := Script.behaviour none
  service := fun _ _ => .unreachable (.unconnected .unreachableNetwork)

/-- How the program ends; at a terminal the user answers its question. -/
def endingFor (resolver : Resolver) (arguments : List String) (world : World) : IO Ending := do
  let input ← IO.getStdin
  if ← input.isTty then
    let silent := run (surroundings resolver (some "")) arguments world
    match silent.trace.prompts with
    | [] => pure silent
    | choices :: _ => do
      IO.eprint (question choices)
      let typed ← input.getLine
      let answered := run (surroundings resolver (some typed)) arguments world
      pure { answered with
        notes := String.ofList (answered.notes.toList.drop (question choices).length) }
  else pure (run (surroundings resolver none) arguments world)

/-- The disk holds what a world has become. -/
def store (before after : World) : IO Unit := do
  (before.newDirectories after).forM fun path => IO.FS.createDirAll path.text
  (before.newFiles after).forM fun (path, bytes) => IO.FS.writeBinFile path.text bytes

/-- **The program**: what its arguments ask for is done; its exit code says how that went. -/
def program (arguments : List String) : IO UInt32 := do
  let environment ← readEnvironment
  let resolver : Resolver := ⟨⟨(← IO.currentDir).toString⟩, environment⟩
  let world ← loadWorld resolver arguments
  let ending ← endingFor resolver arguments world
  store world ending.world
  IO.print ending.output
  IO.eprint ending.notes
  pure ending.exit.toUInt32

end ShaderForge.CommandLine

/-- The program on the command line. -/
def main (arguments : List String) : IO UInt32 := ShaderForge.CommandLine.program arguments

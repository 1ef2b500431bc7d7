/-
**Settings.**

Two texts decide who compiles: the path of a local compiler, and the address of the remote service.
A compiler path that is not blank selects the local compiler. Settings are kept in a TOML file, in
which either text may be missing and other entries do not matter.

* `Settings.parse`: settings from a document;
* `Settings.load`: settings from a file, or the defaults if there is no file;
* `Settings.render`, `Settings.persist`: the document, and writing it with the directories it needs;
* `Settings.check`: one of the two must say something.
-/

import ShaderForge.Text.Blank
import ShaderForge.Toml.Reader
import ShaderForge.World.Change

namespace ShaderForge

/-! ## Part 1 — settings -/

/-- The address of the service, when nothing else is set. -/
def defaultServiceUrl : String := "https://starlight.yyyyy.tech"

/-- The name of the settings file. -/
def settingsFileName : String := "settings.toml"

/-- **Settings.** -/
structure Settings where
  binaryPath : String
  apiUrl : String
deriving DecidableEq

/-- Why settings cannot be had or kept. -/
inductive SettingsError
  | read (path : Path) (fault : IoFault)
  | write (path : Path) (fault : IoFault)
  | parse
  | noBackend
deriving DecidableEq

/-- The text of an error; that of an unreadable document is left open. -/
def SettingsError.message : SettingsError → String
  | read path fault => "failed to read settings file " ++ path.text ++ ": " ++ fault.message
  | write path fault => "failed to write settings file " ++ path.text ++ ": " ++ fault.message
  | parse => "failed to parse settings"
  | noBackend => "invalid settings: either binary_path or api_url must be set"

namespace Settings

/-- The settings of a user who set nothing. -/
def standard : Settings := ⟨"", defaultServiceUrl⟩

/-- Whether the local compiler is selected. -/
def usesLocalCompiler (settings : Settings) : Bool := !Text.isBlankText settings.binaryPath

/-- Settings must name a compiler or a service. -/
def check (settings : Settings) : Except SettingsError Unit :=
  if Text.isBlankText settings.binaryPath && Text.isBlankText settings.apiUrl then throw .noBackend
  else pure ()

/-- Settings with either text replaced. -/
def override (settings : Settings) (binaryPath apiUrl : Option String) : Settings :=
  ⟨binaryPath.getD settings.binaryPath, apiUrl.getD settings.apiUrl⟩

/-! ## Part 2 — documents -/

/-- An entry that must be text, with what counts if it is missing. -/
def textEntry (name : String) (absent : String) (entries : Toml.Entries) :
    Except SettingsError String :=
  match entries.lookup name with
  | none => pure absent
  | some (.text content) => pure content
  | some _ => throw .parse

/-- The settings in a document's entries. -/
def ofEntries (entries : Toml.Entries) : Except SettingsError Settings := do
  let binaryPath ← textEntry "binary_path" standard.binaryPath entries
  let apiUrl ← textEntry "api_url" standard.apiUrl entries
  pure ⟨binaryPath, apiUrl⟩

/-- **Settings from a document**, checked. -/
def parse (text : String) : Except SettingsError Settings :=
  match Toml.read text with
  | none => throw .parse
  | some entries => do
    let settings ← ofEntries entries
    settings.check
    pure settings

/-- One entry of a document, on its line. -/
def renderEntry (name value : String) : List Char :=
  name.toList ++ " = ".toList ++ Toml.writeText value ++ ['\n']

/-- **The document of settings.** -/
def render (settings : Settings) : String :=
  String.ofList (renderEntry "binary_path" settings.binaryPath
    ++ renderEntry "api_url" settings.apiUrl)

/-! ## Part 3 — files -/

/-- **Settings from a file**, or the standard ones if there is none. -/
def load (world : World) (path : Path) : Except SettingsError Settings :=
  if !world.isThere path then pure standard
  else match world.readText path with
    | .error fault => throw (.read path fault)
    | .ok text => parse text

/-- The actions that keep settings: the directories of the file, then the file. -/
def keep (settings : Settings) (path : Path) : Disk Unit := do
  match path.parent? with
  | some directory => Disk.makeDirectories directory
  | none => pure ()
  Disk.write path settings.render.toUTF8

/-- **Settings written to a file**, with the directories that are missing; the world after it is
given also when writing fails. -/
def persist (settings : Settings) (path : Path) (world : World) :
    Except SettingsError Unit × World :=
  let (outcome, after) := (settings.keep path).run.run world
  (outcome.mapError (SettingsError.write path), after)

end Settings

end ShaderForge

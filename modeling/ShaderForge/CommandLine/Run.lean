/-
**The program.**

The command line has three commands: `generate` runs a job, `new` makes a new shader, and `where`
says which settings count. Settings come from a file in the user's directory of settings, and each
can be replaced on the command line.

The program exits with 0 when it did what was asked, or was asked to stop; with 1 when it failed,
and then says why and what lies behind it; and with 2 when the arguments make no sense.

* `settingsFile?`: where the settings are;
* `failureText`: the text of a failure;
* `run`: what the program does with its arguments.
-/

import ShaderForge.CommandLine.Console
import ShaderForge.CommandLine.Help
import ShaderForge.Diagnostic.Printer
import ShaderForge.Job.Generate
import ShaderForge.Template

namespace ShaderForge.CommandLine

/-! ## Part 1 — surroundings -/

/-- **What the program runs in**: where relative paths begin, what was typed if there is a terminal,
and the collaborators of a job. -/
structure Surroundings where
  resolver : Resolver
  terminal : Option String
  token : Token
  compiler : CompilerBehaviour
  service : ServiceBehaviour

/-- The environment of the program. -/
def Surroundings.environment (here : Surroundings) : Environment := here.resolver.environment

/-- The collaborators of a job; its prompt is the terminal. -/
def Surroundings.hooks (here : Surroundings) : Hooks :=
  ⟨here.token, chooseAt here.terminal, here.compiler, here.service⟩

/-- **How the program ends**: its exit code, what it printed on either output, the files that it
left, and what happened in its job. -/
structure Ending where
  exit : Nat
  output : String
  notes : String
  world : World
  trace : Trace

/-! ## Part 2 — settings -/

/-- The directory of all settings of a user with a home directory. -/
def userSettings (environment : Environment) (home : Path) : Path :=
  match environment.value? "XDG_CONFIG_HOME" with
  | some directory =>
    if Path.isAbsolute ⟨directory⟩ then ⟨directory⟩ else home.below ".config"
  | none => home.below ".config"

/-- The directory of the settings of this program. -/
def settingsDirectory? (environment : Environment) : Option Path :=
  match environment.filled? "STARLIGHT_CONFIG_DIR" with
  | some directory => some ⟨directory⟩
  | none => environment.home?.map fun home => (userSettings environment home).below "starlight"

/-- **The file of the settings.** -/
def settingsFile? (environment : Environment) : Option Path :=
  (settingsDirectory? environment).map fun directory => directory.below settingsFileName

/-! ## Part 3 — failures -/

/-- What made the program fail: a text, and what lies behind it. -/
structure Failure where
  context : String
  causes : List String

/-- A text whose lines begin with given texts. -/
def indented (first later text : String) : String :=
  first ++ ("\n" ++ later).intercalate ((Text.pieces '\n' text.toList).map String.ofList)

/-- One of several causes, with its number. -/
def numberedCause (cause : String × Nat) : String :=
  "\n" ++ indented (padded 5 (toString cause.2) ++ ": ") "       " cause.1

/-- The causes of a failure. -/
def causesText : List String → String
  | [] => ""
  | [cause] => "\n\nCaused by:\n" ++ indented "    " "    " cause
  | causes => "\n\nCaused by:" ++ String.join (causes.zipIdx.map numberedCause)

/-- **The text of a failure.** -/
def failureText (failure : Failure) : String :=
  "Error: " ++ failure.context ++ causesText failure.causes ++ "\n"

/-- The texts of a fault of settings and of what lies behind it. -/
def settingsCauses (error : SettingsError) : List String :=
  match error with
  | .read _ fault => [error.message, fault.message]
  | .write _ fault => [error.message, fault.message]
  | _ => [error.message]

/-- The file of the settings, and the settings that count. -/
def loadSettings (environment : Environment) (world : World) (choice : BackendChoice) :
    Except Failure (Path × Settings) :=
  match settingsFile? environment with
  | none => throw ⟨"failed to determine user directories", []⟩
  | some path =>
    match Settings.load world path with
    | .error error => throw ⟨"failed to load settings from " ++ path.text, settingsCauses error⟩
    | .ok settings => pure (path, settings.override choice.binaryPath choice.apiUrl)

/-! ## Part 4 — commands -/

/-- The program did what was asked. -/
def success (output : String) (world : World) : Ending := ⟨0, output, "", world, []⟩

/-- The program failed before it did anything. -/
def failed (failure : Failure) (world : World) : Ending :=
  ⟨1, "", failureText failure, world, []⟩

/-- The settings that count. -/
def describe (here : Surroundings) (world : World) (choice : BackendChoice) : Ending :=
  match loadSettings here.environment world choice with
  | .error failure => failed failure world
  | .ok (path, settings) =>
    let backend :=
      if settings.usesLocalCompiler then "local (" ++ settings.binaryPath ++ ")" else "remote"
    success ("Settings file: " ++ path.text ++ "\nBackend:       " ++ backend
      ++ "\nService URL:   " ++ settings.apiUrl ++ "\n") world

/-- A new shader. -/
def makeNew (world : World) (directory name : String) : Ending :=
  match Template.create ⟨directory⟩ name world with
  | (.error error, after) =>
    failed ⟨"failed to create template '" ++ name ++ "'", error.causes⟩ after
  | (.ok files, after) =>
    success (String.join ([files.config, files.vertex, files.fragment].map fun path =>
      "Created " ++ path.text ++ "\n")) after

/-- The findings of a job, a line or more for each. -/
def findingsText (collection : DiagnosticCollection) : String :=
  String.join (collection.all.map fun diagnostic => diagnostic.render ++ "\n")

/-- The files that a job made. -/
def reportText (report : JobReport) : String :=
  String.join (report.extracted.map fun path => "generated " ++ path.text ++ "\n")

/-- What the program says of a job. -/
def endingOf (terminal : Bool) (path : String) (outcome : Except JobError JobReport)
    (session : Session) : Ending :=
  let output := logText session.trace ++ findingsText session.findings
  let notes := noteText terminal session.trace
  match outcome with
  | .ok report => ⟨0, output ++ reportText report, notes, session.world, session.trace⟩
  | .error .canceled => ⟨0, output, notes, session.world, session.trace⟩
  | .error error =>
    let failure : Failure := ⟨"generation failed for " ++ path, error.causes⟩
    ⟨1, output, notes ++ failureText failure, session.world, session.trace⟩

/-- A job. -/
def generate (here : Surroundings) (world : World) (path : String) (format : Option String)
    (choice : BackendChoice) : Ending :=
  match loadSettings here.environment world choice with
  | .error failure => failed failure world
  | .ok (_, settings) =>
    let generator := Generator.fresh settings here.resolver standardTimeout
    let (outcome, session) := generator.generate ⟨path, format⟩ here.hooks world
    endingOf here.terminal.isSome path outcome session

/-! ## Part 5 — the program -/

/-- What is wrong with arguments. -/
def usageText (environment : Environment) : Usage → String
  | .unknownArgument => "error: unexpected argument\n"
  | .invalidValue => "error: a value is required\n"
  | .unneededValue => "error: unexpected value\n"
  | .unknownCommand => "error: unrecognized subcommand\n"
  | .missingArgument => "error: a required argument was not provided\n"
  | .repeatedOption => "error: an argument cannot be used multiple times\n"
  | .help topic => helpText environment topic
  | .version => versionText
  | .nothingAsked => helpText environment .program

/-- The program was not asked for anything that it can do, or for a text about it. -/
def endingOfUsage (environment : Environment) (world : World) (usage : Usage) : Ending :=
  match usage with
  | .help topic => success (helpText environment topic) world
  | .version => success versionText world
  | _ => ⟨2, "", usageText environment usage, world, []⟩

/-- **What the program does with its arguments.** -/
def run (here : Surroundings) (arguments : List String) (world : World) : Ending :=
  match Command.parse here.environment arguments with
  | .error usage => endingOfUsage here.environment world usage
  | .ok (.generate path format choice) => generate here world path format choice
  | .ok (.new directory name) => makeNew world directory name
  | .ok (.locate choice) => describe here world choice

end ShaderForge.CommandLine

/-
**Help.**

Asked for help, the program says what it does, how it is called, and what each command, argument and
option stands for. What is explained stands in columns: the subjects, then what is said about them.

* `columns`: subjects and what is said about them;
* `helpText`: the help about a topic;
* `versionText`: the name and the version of the program.
-/

import ShaderForge.CommandLine.Arguments

namespace ShaderForge.CommandLine

/-! ## Part 1 — columns -/

/-- The length of the longest of some texts. -/
def longest : List String → Nat
  | [] => 0
  | text :: rest => if longest rest ≤ text.length then text.length else longest rest

/-- A text with blanks behind it, up to a width. -/
def paddedRight (width : Nat) (text : String) : String :=
  text ++ String.ofList (List.replicate (width - text.length) ' ')

/-- **Subjects and what is said about them**, a line for each. -/
def columns (lines : List (String × String)) : String :=
  let width := longest (lines.map Prod.fst)
  String.join (lines.map fun (subject, about) =>
    "  " ++ paddedRight width subject ++ "  " ++ about ++ "\n")

/-- Columns under a heading; nothing without lines. -/
def headed (heading : String) (lines : List (String × String)) : String :=
  if lines.isEmpty then "" else "\n" ++ heading ++ ":\n" ++ columns lines

/-! ## Part 2 — what is said -/

/-- The name of the program. -/
def programName : String := "slgen"

/-- **The name and the version of the program.** -/
def versionText : String := programName ++ " 0.1.0\n"

/-- What the program does. -/
def programAbout : String :=
  "Generate StarLight shader bindings with a local compiler or the remote service"

/-- What help does. -/
def helpAbout : String := "Print this message or the help of the given subcommand(s)"

/-- The option that asks for help. -/
def helpOption : String × String := ("-h, --help", "Print help")

namespace CommandKind

/-- What a command does. -/
def about : CommandKind → String
  | generate => "Compile a shader folder, a `.sl.json` config, or a single shader file"
  | new => "Scaffold `<DIR>/<NAME>/` with a config and default shaders"
  | locate => "Print the settings file location and effective settings"

/-- The arguments of a command. -/
def arguments : CommandKind → List (String × String)
  | generate => [("<PATH>", "Folder, config file, or shader file to generate from")]
  | new =>
    [("<DIR>", "Directory the template folder is created in"),
      ("<NAME>", "Shader name; also names the folder and files")]
  | locate => []

end CommandKind

namespace Setting

/-- What the value of an option is. -/
def valueName : Setting → String
  | format => "LANG"
  | binaryPath => "PATH"
  | apiUrl => "URL"

/-- What an option is for. -/
def about : Setting → String
  | format => "Output language for the remote service (e.g. `lua`, `cpp`, `ts`)"
  | binaryPath => "Local compiler binary; when set, jobs run locally instead of remotely"
  | apiUrl => "Remote generation service URL"

/-- An option and what is said about it, with the variable that stands in for it. -/
def line (environment : Environment) (setting : Setting) : String × String :=
  let stood :=
    match setting.standIn? with
    | none => ""
    | some name => " [env: " ++ name ++ "=" ++ (environment.value? name).getD "" ++ "]"
  ("    --" ++ setting.name ++ " <" ++ setting.valueName ++ ">", setting.about ++ stood)

end Setting

/-! ## Part 3 — topics -/

/-- How the program is called. -/
def usageLine (words : List String) : String :=
  "\n\nUsage: " ++ " ".intercalate (programName :: words) ++ "\n"

/-- The help about the program. -/
def programHelp : String :=
  let commands := [CommandKind.generate, .new, .locate].map fun kind => (kind.name, kind.about)
  programAbout ++ usageLine ["<COMMAND>"] ++ headed "Commands" (commands ++ [("help", helpAbout)])
    ++ headed "Options" [helpOption, ("-V, --version", "Print version")]

/-- The help about a command. -/
def commandHelp (environment : Environment) (kind : CommandKind) : String :=
  let options := if kind.settings.isEmpty then [] else ["[OPTIONS]"]
  kind.about ++ usageLine (kind.name :: options ++ kind.arguments.map Prod.fst)
    ++ headed "Arguments" kind.arguments
    ++ headed "Options" (kind.settings.map (Setting.line environment) ++ [helpOption])

/-- **The help about a topic.** -/
def helpText (environment : Environment) : Topic → String
  | .program => programHelp
  | .command kind => commandHelp environment kind
  | .help =>
    helpAbout ++ usageLine ["help", "[COMMAND]..."]
      ++ headed "Arguments" [("[COMMAND]...", "Print help for the subcommand(s)")]

end ShaderForge.CommandLine

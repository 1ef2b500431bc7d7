/-
**Arguments.**

The first argument names a command. What follows are options, each with a value after `=` or in the
next argument, and places for plain arguments. After `--` every argument is plain. An option that is
not given takes its value from a variable of the environment, if it has one.

A value is checked when the argument after it makes clear that it is complete. So an unknown
argument is reported before a fault in the value before it, while a known option is not.

* `Command`: what can be asked for;
* `Usage`: why arguments ask for nothing that can be done, or for help;
* `Command.parse`: the command that arguments ask for.
-/

import ShaderForge.Environment
import ShaderForge.Text.Pieces

namespace ShaderForge.CommandLine

/-! ## Part 1 — commands -/

/-- What is said on the command line about who compiles. -/
structure BackendChoice where
  binaryPath : Option String
  apiUrl : Option String

/-- **What can be asked for.** -/
inductive Command
  | generate (path : String) (format : Option String) (backend : BackendChoice)
  | new (directory name : String)
  | locate (backend : BackendChoice)

/-- An option. -/
inductive Setting
  | format
  | binaryPath
  | apiUrl
deriving DecidableEq

namespace Setting

/-- The name of an option. -/
def name : Setting → String
  | format => "type"
  | binaryPath => "binary-path"
  | apiUrl => "api-url"

/-- The variable that stands in for an option. -/
def standIn? : Setting → Option String
  | format => none
  | binaryPath => some "STARLIGHT_BINARY_PATH"
  | apiUrl => some "STARLIGHT_API_URL"

end Setting

/-- The kinds of commands. -/
inductive CommandKind
  | generate
  | new
  | locate
deriving DecidableEq

namespace CommandKind

/-- The word that names a kind of command. -/
def name : CommandKind → String
  | generate => "generate"
  | new => "new"
  | locate => "where"

/-- The kind of command that a word names. -/
def ofName? (word : String) : Option CommandKind :=
  [generate, new, locate].find? fun kind => kind.name == word

/-- The options of a command. -/
def settings : CommandKind → List Setting
  | generate => [.format, .binaryPath, .apiUrl]
  | new => []
  | locate => [.binaryPath, .apiUrl]

/-- The places of a command; each says whether it may be empty. -/
def places : CommandKind → List Bool
  | generate => [false]
  | new => [false, true]
  | locate => []

/-- The option of a command with a name. -/
def setting? (kind : CommandKind) (name : String) : Option Setting :=
  kind.settings.find? fun setting => setting.name == name

end CommandKind

/-- What help can be about. -/
inductive Topic
  | program
  | command (kind : CommandKind)
  | help
deriving DecidableEq

/-- **Why arguments ask for nothing that can be done**, or for a text about the program. -/
inductive Usage
  | unknownArgument
  | invalidValue
  | unneededValue
  | unknownCommand
  | missingArgument
  | repeatedOption
  | help (topic : Topic)
  | version
  | nothingAsked
deriving DecidableEq

/-! ## Part 2 — reading the arguments of a command -/

/-- What was read last and is not settled yet. -/
inductive Unsettled
  | nothing
  | awaiting (setting : Setting)
  | value (setting : Setting) (given : String)
  | plain (given : String)

/-- What was read so far. -/
structure Reading where
  options : List (Setting × String)
  plains : List String
  unsettled : Unsettled
  onlyPlain : Bool

namespace Reading

/-- Nothing was read. -/
def start : Reading := ⟨[], [], .nothing, false⟩

/-- An option with its value; each option counts once. -/
def addOption (reading : Reading) (setting : Setting) (given : String) : Except Usage Reading :=
  if (reading.options.lookup setting).isSome then throw .repeatedOption
  else pure { reading with options := (setting, given) :: reading.options, unsettled := .nothing }

/-- A plain argument in the next place. -/
def addPlain (kind : CommandKind) (reading : Reading) (given : String) : Except Usage Reading :=
  if given.isEmpty && kind.places[reading.plains.length]? == some false then throw .invalidValue
  else pure { reading with plains := reading.plains ++ [given], unsettled := .nothing }

/-- What was read last is settled. -/
def settled (kind : CommandKind) (reading : Reading) : Except Usage Reading :=
  match reading.unsettled with
  | .nothing => pure reading
  | .awaiting _ => throw .invalidValue
  | .value setting given => reading.addOption setting given
  | .plain given => reading.addPlain kind given

/-- How many places are taken. -/
def taken (reading : Reading) : Nat :=
  match reading.unsettled with
  | .plain _ => reading.plains.length + 1
  | _ => reading.plains.length

/-- A plain argument is read. -/
def readPlain (kind : CommandKind) (reading : Reading) (given : String) : Except Usage Reading := do
  if kind.places.length ≤ reading.taken then throw .unknownArgument
  let reading ← reading.settled kind
  pure { reading with unsettled := .plain given }

/-- Help is asked for; what was read before must be in order. -/
def readHelp (kind : CommandKind) (reading : Reading) : Except Usage Reading := do
  let _ ← reading.settled kind
  throw (.help (.command kind))

/-- An option is read, with the value after its `=`, if there is one. -/
def readOption (kind : CommandKind) (reading : Reading) (name : String) (given : Option String) :
    Except Usage Reading :=
  match kind.setting? name with
  | some setting => do
    let reading ← reading.settled kind
    match given with
    | some given => reading.addOption setting given
    | none => pure { reading with unsettled := .awaiting setting }
  | none =>
    if name = "help" then
      match given with
      | some _ => throw .unneededValue
      | none => reading.readHelp kind
    else throw .unknownArgument

end Reading

/-- An argument, by its shape. -/
inductive Shape
  | onlyPlain
  | long (name : String) (given : Option String)
  | short (letter : Char)
  | plain

/-- A name and the value after the first `=`. -/
def cutValue (cs : List Char) : String × Option String :=
  match Text.pieces '=' cs with
  | [] => ("", none)
  | [name] => (String.ofList name, none)
  | name :: rest => (String.ofList name, some (String.ofList (Text.joinPieces '=' rest)))

/-- The shape of an argument. -/
def shapeOf (argument : String) : Shape :=
  match argument.toList with
  | ['-', '-'] => .onlyPlain
  | '-' :: '-' :: rest => .long (cutValue rest).1 (cutValue rest).2
  | '-' :: letter :: _ => .short letter
  | _ => .plain

namespace Reading

/-- An argument that may be an option is read. -/
def readAny (kind : CommandKind) (reading : Reading) (argument : String) : Except Usage Reading :=
  match shapeOf argument with
  | .onlyPlain => pure { reading with onlyPlain := true }
  | .long name given => reading.readOption kind name given
  | .short letter => if letter = 'h' then reading.readHelp kind else throw .unknownArgument
  | .plain =>
    match reading.unsettled with
    | .awaiting setting => pure { reading with unsettled := .value setting argument }
    | _ => reading.readPlain kind argument

/-- **An argument is read.** -/
def read (kind : CommandKind) (reading : Reading) (argument : String) : Except Usage Reading :=
  if reading.onlyPlain then reading.readPlain kind argument else reading.readAny kind argument

/-- Arguments are read. -/
def readAll (kind : CommandKind) (arguments : List String) : Except Usage Reading := do
  let reading ← arguments.foldlM (read kind) start
  reading.settled kind

/-- The value of an option, given or from the environment. -/
def option? (environment : Environment) (reading : Reading) (setting : Setting) : Option String :=
  (reading.options.lookup setting).or (setting.standIn?.bind environment.value?)

/-- What was said about who compiles. -/
def backend (environment : Environment) (reading : Reading) : BackendChoice :=
  ⟨reading.option? environment .binaryPath, reading.option? environment .apiUrl⟩

/-- The command that was read, if all its places are taken. -/
def command (environment : Environment) (reading : Reading) : CommandKind → Except Usage Command
  | .generate =>
    match reading.plains with
    | [path] =>
      pure (.generate path (reading.option? environment .format) (reading.backend environment))
    | _ => throw .missingArgument
  | .new =>
    match reading.plains with
    | [directory, name] => pure (.new directory name)
    | _ => throw .missingArgument
  | .locate => pure (.locate (reading.backend environment))

end Reading

/-! ## Part 3 — all arguments -/

/-- Help about commands, which must be known; no command has commands of its own. -/
def readHelpCommand : List String → Usage
  | [] => .help .program
  | [name] =>
    if name = "help" then .help .help
    else (CommandKind.ofName? name).elim .unknownCommand fun kind => .help (.command kind)
  | _ => .unknownCommand

/-- The command after `--`, which can be none. -/
def readAfterMark : List String → Usage
  | [] => .nothingAsked
  | name :: _ =>
    if name = "help" || (CommandKind.ofName? name).isSome then .unknownArgument
    else .unknownCommand

/-- What an option in front of the command asks for. -/
def readFront (name : String) (given : Option String) : Usage :=
  if name = "help" then (if given.isSome then .unneededValue else .help .program)
  else if name = "version" then (if given.isSome then .unneededValue else .version)
  else .unknownArgument

/-- What a letter in front of the command asks for. -/
def readFrontLetter (letter : Char) : Usage :=
  if letter = 'h' then .help .program else if letter = 'V' then .version else .unknownArgument

/-- **The command that arguments ask for.** -/
def Command.parse (environment : Environment) : List String → Except Usage Command
  | [] => throw .nothingAsked
  | first :: rest =>
    match shapeOf first with
    | .onlyPlain => throw (readAfterMark rest)
    | .long name given => throw (readFront name given)
    | .short letter => throw (readFrontLetter letter)
    | .plain =>
      match CommandKind.ofName? first with
      | some kind => do
        let reading ← Reading.readAll kind rest
        reading.command environment kind
      | none => throw (if first = "help" then readHelpCommand rest else .unknownCommand)

end ShaderForge.CommandLine

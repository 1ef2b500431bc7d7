/-
**Compilers that follow a script.**

A scripted compiler is a program at a given place that does the same for the same config: it writes
files, prints, and exits, or does not come to an end. It stands for a real compiler wherever jobs
are looked at without one. Only a program that is there can be started, and only in a directory.

* `ScriptRule`: what a scripted compiler does for a config;
* `Script.behaviour`: the compiler;
* `Script.interrupts`: whether a run interrupts the job.
-/

import ShaderForge.Job.Basic

namespace ShaderForge

/-- **What a scripted compiler does** for a config, or for every config if none is named. -/
structure ScriptRule where
  config : Option String
  writes : List (Path × ByteArray)
  stdout : ByteArray
  stderr : ByteArray
  status : Int
  hangs : Bool
  interrupts : Bool

/-- Nothing is written or printed. -/
def ScriptRule.quiet : ScriptRule := ⟨none, [], ByteArray.empty, ByteArray.empty, 0, false, false⟩

/-- **A scripted compiler**: the place of the program, and its rules. -/
structure Script where
  place : Path
  rules : List ScriptRule

namespace Script

/-- The first rule for an invocation: its config is the second argument. -/
def ruleFor (script : Script) (invocation : Invocation) : ScriptRule :=
  (script.rules.find? fun rule =>
    rule.config.isNone || rule.config == invocation.arguments[1]?).getD .quiet

/-- The world after the writing of a rule in a directory. -/
def written (directory : Path) (rule : ScriptRule) (world : World) : World :=
  let write (file : Path × ByteArray) : Disk Unit := do
    let target := directory.join file.1
    match target.parent? with
    | none => pure ()
    | some parent => Disk.makeDirectories parent
    Disk.write target file.2
  ((rule.writes.forM write).run.run world).2

/-- The place of the program of an invocation; a bare name is no place. -/
def programPlace (world : World) (invocation : Invocation) : Except IoFault (Location × Node) :=
  if invocation.binary.text.toList.contains '/' then
    world.find (invocation.directory.join invocation.binary)
  else .error .notFound

/-- Why an invocation cannot be started, if it cannot: it needs a directory to run in, and a program
that may be run, which only the script's own is. -/
def startFault? (script : Option Script) (world : World) (invocation : Invocation) :
    Option IoFault :=
  match world.find invocation.directory with
  | .error fault => some fault
  | .ok (_, .file _) => some .notADirectory
  | .ok (_, .directory) =>
    match programPlace world invocation with
    | .error fault => some fault
    | .ok (place, _) =>
      let installed := script.bind fun script => (world.find? script.place).map Prod.fst
      if installed == some place then none else some .denied

/-- What a run of a rule does. -/
def outcome (rule : ScriptRule) : CompilerOutcome :=
  if rule.hangs || rule.interrupts then .timedOut
  else .exited rule.stdout rule.stderr rule.status

/-- **The compiler that follows a script**, or the one that is nowhere. -/
def behaviour (script : Option Script) : CompilerBehaviour := fun _ invocation world =>
  match startFault? script world invocation with
  | some fault => .error fault
  | none =>
    let rule := (script.map fun script => script.ruleFor invocation).getD .quiet
    .ok (outcome rule, written invocation.directory rule world)

/-- Whether an event is a run that interrupts the job. -/
def interrupts (script : Option Script) : Event → Bool
  | .started invocation =>
    (script.map fun script => (script.ruleFor invocation).interrupts).getD false
  | _ => false

end Script

end ShaderForge

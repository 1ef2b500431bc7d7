/-
**The output format of a job.**

The service needs to know the format to write. The first of these that says anything decides: the
format that was asked for, the first config that declares one, the user's choice, and `lua` if there
is nothing else. Configs that cannot be read do not count.

* `JobInput.declaredFormat?`: the format that the configs of a job declare;
* `Job.outputFormat`: the format of a job.
-/

import ShaderForge.Input.Basic
import ShaderForge.Job.Basic

namespace ShaderForge

/-- The formats that are offered. -/
def outputFormats : List String := ["lua", "cpp", "ts"]

/-- The format when nothing else decides. -/
def fallbackFormat : String := "lua"

/-- A text trimmed, if it is not blank. -/
def meaningful? (text : String) : Option String :=
  (some (Text.trim text)).filter fun trimmed => !trimmed.isEmpty

/-- The format that a config file declares, if it can be read. -/
def formatIn? (world : World) (path : Path) : Option String :=
  (ConfigFile.load world path).toOption.bind ConfigFile.declaredFormat?

/-- **The format that the configs of a job declare.** A shader has the config that owns it. -/
def JobInput.declaredFormat? (world : World) : JobInput → Option String
  | shader target => target.config.declaredFormat?
  | directory root => ((directory root).configFiles world).findSome? (formatIn? world)
  | config root path => ((config root path).configFiles world).findSome? (formatIn? world)

namespace Job

/-- The user's choice, or the format for when there is none. -/
def chosenFormat : Job String := do
  let answer ← choose outputFormats
  pure ((answer.bind meaningful?).getD fallbackFormat)

/-- The format that the configs declare, or the user's choice. -/
def declaredFormat (input : JobInput) : Job String := do
  let declared ← awaited (inspect fun world => pure (input.declaredFormat? world))
  match declared with
  | some format => pure format
  | none => chosenFormat

/-- **The output format of a job.** -/
def outputFormat (hint : Option String) (input : JobInput) : Job String :=
  match hint.bind meaningful? with
  | some format => pure format
  | none => declaredFormat input

end Job

end ShaderForge

/-
**How a job fails.**

One cause for each way in which a job or one of its steps ends without a result, with its text.
Cancellation is one of them, but it is no failure: whoever asked for it gets nothing more to read.

* `JobError.message`: the text of a cause;
* `JobError.causes`: the texts of a cause and of what lies behind it, outermost first.
-/

import ShaderForge.Config.Reader
import ShaderForge.Endpoint.Basic
import ShaderForge.Resolver
import ShaderForge.World.Lookup

namespace ShaderForge

/-- Why an exchange with the service failed: it could not be connected, the connection broke off,
or the service refused with a status. -/
inductive TransferFault
  | unconnected (fault : IoFault)
  | broken
  | refused (status : Nat)
deriving DecidableEq

/-- **How a job fails.** -/
inductive JobError
  | invalidInput (path : Path)
  | invalidConfig (path : Path) (fault : ConfigFault)
  | canceled
  | timeout (config : Path) (milliseconds : Nat)
  | spawn (binary : Path) (fault : IoFault)
  | invalidBinary (text : String) (fault : PathFault)
  | invalidEndpoint (url : String) (fault : EndpointFault)
  | transfer (url : String) (fault : TransferFault)
  | archive
  | io (fault : IoFault)
  | generationFailed (log : Path)
  | compilerErrors (count : Nat)
  | invalidName (name : String)

namespace JobError

/-- Whether a job ended because it was asked to. -/
def isCanceled : JobError → Bool
  | canceled => true
  | _ => false

/-- The text of a cause. -/
def message : JobError → String
  | invalidInput path => "Invalid input folder/file: " ++ path.text
  | invalidConfig path fault => "Invalid json config file: " ++ path.text ++ ": " ++ fault.message
  | canceled => "Early canceled"
  | timeout config milliseconds =>
    "compiler timed out after " ++ toString (milliseconds / 1000) ++ "s while processing "
      ++ config.text
  | spawn binary fault => "failed to launch compiler " ++ binary.text ++ ": " ++ fault.message
  | invalidBinary text fault => "invalid compiler path '" ++ text ++ "': " ++ fault.message
  | invalidEndpoint url fault => "invalid service url '" ++ url ++ "': " ++ fault.message
  | transfer url (.unconnected _) => "error sending request for url (" ++ url ++ ")"
  | transfer url .broken => "error decoding response body for url (" ++ url ++ ")"
  | transfer url (.refused status) =>
    "HTTP status " ++ (if status < 500 then "client" else "server") ++ " error ("
      ++ toString status ++ ") for url (" ++ url ++ ")"
  | archive => "invalid Zip archive"
  | io fault => fault.message
  | generationFailed log => "Error occurred during generation, please check " ++ log.text
  | compilerErrors count => "compiler reported " ++ toString count ++ " error(s)"
  | invalidName name => "invalid shader name '" ++ name ++ "'"

/-- What lies behind a cause. -/
def behind : JobError → List String
  | spawn _ fault => [fault.message]
  | transfer _ (.unconnected fault) =>
    ["client error (Connect)", "tcp connect error", fault.message]
  | _ => []

/-- **The texts of a cause and of what lies behind it**, outermost first. -/
def causes (error : JobError) : List String := error.message :: error.behind

end JobError

/-- What an operation on files gives, with its failures as those of a job. -/
def liftIo {α : Type} (result : Except IoFault α) : Except JobError α := result.mapError JobError.io

/-- **A config from a file.** -/
def ConfigFile.load (world : World) (path : Path) : Except JobError ConfigFile :=
  match world.readText path with
  | .error fault => throw (.io fault)
  | .ok text => (ConfigFile.parse text).mapError (JobError.invalidConfig path)

end ShaderForge

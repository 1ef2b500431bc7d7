/-
**Having it compiled elsewhere.**

The service is sent an archive of the sources and the format to write. It answers with an archive of
what it made, which is unpacked over the root of the job. Its log comes along in that archive; it is
read for findings and removed.

* `Job.bundle`: the archive of a job;
* `Job.upload`, `Job.receive`: the request, and the body of the answer;
* `Job.collectLog`: the findings of the log, and whether it reports a failure;
* `Service.run`: a whole remote job.
-/

import ShaderForge.Archive.Extract
import ShaderForge.Archive.Pack
import ShaderForge.Diagnostic.Parser
import ShaderForge.OutputBlock
import ShaderForge.Text.Utf8

namespace ShaderForge

/-! ## Part 1 — the service and what it gives -/

/-- The name of an archive that the service sends. -/
def resultName : String := "slOutput.zip"

/-- What is sent and what comes back lie side by side in a directory of the job's own. Neither takes
the place of the other, and so both are handed on as values. -/
theorem resultName_ne_archiveName : resultName ≠ archiveName := by decide

/-- **The remote service**, at its address. -/
structure Service where
  endpoint : Endpoint

/-- The address of a service as text. -/
def Service.url (service : Service) : String := service.endpoint.text

/-- The service at an address, which must be one that can be asked. -/
def Service.at? (url : String) : Except JobError Service :=
  match Endpoint.parse (Text.trim url) with
  | .error fault => throw (.invalidEndpoint (Text.trim url) fault)
  | .ok endpoint => pure ⟨endpoint⟩

/-- **What a remote job produced**: findings, the files written, and the log if it reports a
failure. -/
structure RemoteRun where
  diagnostics : List Diagnostic
  extracted : List Path
  failedLog : Option Path

/-! ## Part 2 — shares of the progress -/

/-- The share of packing. -/
def packShare : Rat := 35

/-- The share of waiting for the answer. -/
def receiveShare : Rat := 20

/-- The share of reading the answer. -/
def downloadShare : Rat := 20

/-- The share of unpacking. -/
def extractShare : Rat := 25

namespace Job

/-! ## Part 3 — sending -/

/-- A step of packing as progress. -/
def reportPacking (done total : Nat) : Job Unit :=
  progress 0 (some ("creating zip archive... " ++ toString done ++ "B/" ++ toString total ++ "B"))

/-- **The archive of a job.** -/
def bundle (input : JobInput) : Job Archive := do
  progress 0 (some "creating zip archive...")
  let plan ← guarded (inspect fun world => input.plan world)
  if plan.isEmpty then throw (.invalidInput input.root)
  let archive ← guarded (pack reportPacking plan)
  progress packShare none
  pure archive

/-- A request is sent; the pieces of the answer's body, and whether it breaks off. -/
def request (upload : Upload) : Job (List ByteArray × Bool) := do
  let reply := (← read).service (← get).trace upload
  emit (.sent upload)
  match reply with
  | .unreachable fault => throw (.transfer upload.url fault)
  | .answered status pieces broken =>
    if 400 ≤ status ∧ status < 600 then throw (.transfer upload.url (.refused status))
    else pure (pieces, broken)

/-- **The archive is sent** to a service. -/
def upload (service : Service) (format : String) (archive : Archive) :
    Job (List ByteArray × Bool) := do
  log ("uploading " ++ archiveName ++ " (" ++ toString archive.size ++ " bytes) to " ++ service.url)
  checkpoint
  guarded (request ⟨service.url, format, archive.members⟩)

/-! ## Part 4 — receiving -/

/-- The answer has begun. -/
def acknowledge : Job Unit := progress receiveShare (some "receiving result from server...")

/-- The pieces of a body that are left; the first one is acknowledged. -/
def receiveEach (url : String) (broken : Bool) : Bool → List ByteArray → Job ByteArray
  | acknowledged, [] => do
    guarded (if broken then throw (.transfer url .broken) else pure ())
    if !acknowledged then acknowledge
    pure ByteArray.empty
  | acknowledged, piece :: rest => do
    checkpoint
    if !acknowledged then acknowledge
    let later ← receiveEach url broken true rest
    pure (piece ++ later)

/-- **The body of the answer.** -/
def receive (url : String) (pieces : List ByteArray) (broken : Bool) : Job ByteArray := do
  let body ← receiveEach url broken false pieces
  progress downloadShare (some "result received")
  pure body

/-! ## Part 5 — the log -/

/-- Whether a log reports an error anywhere, in any case. -/
def reportsError (log : String) : Bool := Text.occurs "[ERROR]".toList (Text.upper log).toList

/-- The text of a log file, if there is one. -/
def logText? (world : World) (path : Path) : Except JobError (Option String) :=
  match world.read path with
  | .ok bytes => pure (some (Text.decodeLossy bytes))
  | .error .notFound => pure none
  | .error fault => throw (.io fault)

/-- **The findings of the log**, which is removed, and whether it reports a failure. -/
def collectLog (resolver : Resolver) (root primary : Path) : Job (List Diagnostic × Bool) := do
  let path := root.below logName
  match ← inspect fun world => logText? world path with
  | none => pure ([], false)
  | some content =>
    discard path
    let block := outputBlock content
    logLines block
    let reader : OutputReader := ⟨(← get).world, resolver, root, primary⟩
    let diagnostics := reader.parse block
    pure (diagnostics, decide (0 < errorCount diagnostics) || reportsError content)

end Job

/-! ## Part 6 — the whole job -/

/-- **A remote job.** -/
def Service.run (service : Service) (resolver : Resolver) (input : JobInput) (format : String) :
    Job RemoteRun := do
  let root := input.root
  let archive ← Job.bundle input
  let (pieces, broken) ← Job.upload service format archive
  let body ← Job.receive service.url pieces broken
  Job.progress 0 (some "extracting result...")
  let extracted ← Job.extract body root
  let primary ← Job.inspect fun world => input.primaryConfig world
  let (diagnostics, failed) ← Job.collectLog resolver root primary
  Job.progress extractShare (some "starlight generate done")
  pure ⟨diagnostics, extracted, if failed then some (root.below logName) else none⟩

end ShaderForge

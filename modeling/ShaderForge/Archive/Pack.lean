/-
**Packing an archive.**

The entries of a plan are read one after the other. Before each the token is looked at, and after
each the number of bytes packed so far is reported together with the number expected, which was
counted before the first one. Packing stops at the first fault; what was packed until then is kept.

An archive that is written to a file is there from the start. When packing is cancelled the file is
removed; when it fails otherwise the file holds what was packed until then.

Entries are meant to be smaller than 4 GiB: an archive has four bytes for the size of an entry, and
the refusal of larger ones is left out.

* `pack`: the members that the entries give, and the fault that ended packing;
* `writeArchive`: an archive in a file.
-/

import ShaderForge.Archive.Plan
import ShaderForge.Job.Basic
import ShaderForge.Total
import ShaderForge.Zip.Writer

namespace ShaderForge

/-! ## Part 1 — sizes and bytes -/

/-- The number of bytes that a source is expected to give. -/
def EntrySource.size (world : World) : EntrySource → Nat
  | file path => world.size path
  | bytes content => content.size

/-- The bytes that a source gives. -/
def EntrySource.content (world : World) : EntrySource → Except JobError ByteArray
  | file path => liftIo (world.read path)
  | bytes content => pure content

/-- The number of bytes that the entries of a plan are expected to give. -/
def expectedSize (world : World) (plan : List ArchiveEntry) : Nat :=
  total (plan.map fun entry => entry.source.size world)

/-- **An archive**: named members in order. -/
structure Archive where
  members : List (String × ByteArray)

namespace Archive

/-- The names of the members. -/
def names (archive : Archive) : List String := archive.members.map Prod.fst

/-- The number of bytes of all members. -/
def size (archive : Archive) : Nat := total (archive.members.map fun member => member.2.size)

/-- An archive as bytes. -/
def bytes (archive : Archive) : ByteArray := Zip.write archive.members

end Archive

/-! ## Part 2 — packing -/

/-- What packing comes to: the members so far, and the fault that ended it. -/
structure Packing where
  members : List (String × ByteArray)
  fault : Option JobError

namespace Job

/-- Packing of the entries that are left, after `done` bytes. -/
def packFrom (report : Nat → Nat → Job Unit) (total : Nat) :
    Nat → List ArchiveEntry → Job Packing
  | _, [] => pure ⟨[], none⟩
  | done, entry :: rest => do
    if ← look then pure ⟨[], some .canceled⟩
    else
      match entry.source.content (← get).world with
      | .error fault => pure ⟨[], some fault⟩
      | .ok content =>
        report (done + content.size) total
        let later ← packFrom report total (done + content.size) rest
        pure ⟨(entry.name, content) :: later.members, later.fault⟩

/-- **The members that a plan gives.** -/
def pack (report : Nat → Nat → Job Unit) (plan : List ArchiveEntry) : Job Archive := do
  let packing ← packFrom report (expectedSize (← get).world plan) 0 plan
  match packing.fault with
  | none => pure ⟨packing.members⟩
  | some fault => throw fault

/-- Each step of packing as an event. -/
def reportPacked (done total : Nat) : Job Unit := emit (.packed done total)

/-! ## Part 3 — into a file -/

/-- A file is removed, if it can be. -/
def discard (path : Path) : Job Unit := do
  let _ ← attempt (onDisk (Disk.change fun world => world.removeFile path))

/-- **An archive written to a file.** -/
def writeArchive (report : Nat → Nat → Job Unit) (plan : List ArchiveEntry) (destination : Path) :
    Job Archive := do
  let total := expectedSize (← get).world plan
  onDisk (Disk.write destination ByteArray.empty)
  let packing ← packFrom report total 0 plan
  match packing.fault with
  | some .canceled =>
    discard destination
    throw .canceled
  | some fault =>
    onDisk (Disk.write destination (Zip.write packing.members))
    throw fault
  | none =>
    onDisk (Disk.write destination (Zip.write packing.members))
    pure ⟨packing.members⟩

end Job

end ShaderForge

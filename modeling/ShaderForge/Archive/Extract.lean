/-
**Unpacking an archive.**

The members of an archive are written below a root, in their order, except that the log of the
service comes last: a cancelled extraction leaves none behind. Before each member the token is
looked at. Members whose names would lead out of the root are left out. Directories are made as they
are needed, and files that are in the way are replaced.

An archive that cannot be opened changes nothing.

* `Zip.extractionOrder`: the members in the order in which they are written;
* `Job.extract`: an archive written below a root, with the paths of the files in that order.
-/

import ShaderForge.Job.Basic
import ShaderForge.Zip.Reader

namespace ShaderForge

/-- The name of the log that the service sends along. -/
def logName : String := ".starlight.log"

/-! ## Part 1 — members -/

namespace Zip

/-- Whether a member is the log of the service. -/
def Member.isLog (member : Member) : Bool := isNamed logName member.name

/-- **The order in which members are written**: the log last. -/
def extractionOrder (members : List Member) : List Member :=
  (members.filter fun member => !member.isLog) ++ members.filter Member.isLog

/-- The place of a member below a root. -/
def Member.target (root : Path) (member : Member) : Path := root.below member.name

/-- Whether a member is written as a file. -/
def Member.isWritten (member : Member) : Bool :=
  isSafeName member.name && !isDirectoryName member.name

/-- The directory that a file lies in, with all above it. -/
def makeParent (target : Path) : Disk Unit :=
  match target.parent? with
  | none => pure ()
  | some parent => Disk.makeDirectories parent

/-- A file with what can be read of a member. -/
def writeMember (target : Path) (member : Member) : Disk Unit := do
  makeParent target
  Disk.write target member.data
  match member.fault with
  | none => pure ()
  | some fault => throw fault

/-- One member below a root. -/
def placeMember (root : Path) (member : Member) : Disk Unit :=
  if !isSafeName member.name then pure ()
  else if isDirectoryName member.name then Disk.makeDirectories (member.target root)
  else writeMember (member.target root) member

end Zip

/-! ## Part 2 — archives -/

namespace Job

open Zip (Member)

/-- Members written below a root, in the given order. -/
def placeMembers (root : Path) : List Member → Job (List Path)
  | [] => pure []
  | member :: rest => do
    checkpoint
    onDisk (Zip.placeMember root member)
    let later ← placeMembers root rest
    pure (if member.isWritten then member.target root :: later else later)

/-- **An archive written below a root.** -/
def extract (archive : ByteArray) (root : Path) : Job (List Path) :=
  match Zip.members? archive with
  | none => throw .archive
  | some members => placeMembers root (Zip.extractionOrder members)

/-- The archive in a file, written below a root. -/
def extractFile (archive root : Path) : Job (List Path) := do
  extract (← inspect fun world => liftIo (world.read archive)) root

end Job

end ShaderForge

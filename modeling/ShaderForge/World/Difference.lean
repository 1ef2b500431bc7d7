/-
**What changed in a world.**

What has to be done on a disk that held one world so that it holds another one: the directories that
are new, those above others first, and the files that are new or have other bytes.

* `newDirectories`, `newFiles`: what has to be made.
-/

import ShaderForge.World.Lookup

namespace ShaderForge

/-- The path of a location, from the root. -/
def pathTo (place : Location) : Path := ⟨"/" ++ "/".intercalate (place.reverse.map EntryName.text)⟩

namespace World

/-- Whether a location holds a file with given bytes. -/
def holdsBytes (world : World) (place : Location) (bytes : ByteArray) : Bool :=
  match world.node? place with
  | some (.file held) => held.data.toList == bytes.data.toList
  | _ => false

/-- The location of a node that is a directory only in the later world. -/
def directoryMade? (before : World) (entry : Location × Node) : Option Location :=
  if entry.2.isDirectory && !before.hasDirectory entry.1 then some entry.1 else none

/-- The path and the bytes of a node that is a file with these bytes only in the later world. -/
def fileMade? (before : World) (entry : Location × Node) : Option (Path × ByteArray) :=
  match entry.2 with
  | .directory => none
  | .file bytes => if before.holdsBytes entry.1 bytes then none else some (pathTo entry.1, bytes)

/-- **The directories that are new**, those above others first. -/
def newDirectories (before after : World) : List Path :=
  ((after.nodes.filterMap before.directoryMade?).mergeSort fun left right =>
    decide (left.length ≤ right.length)).map pathTo

/-- **The files that are new** or have other bytes. -/
def newFiles (before after : World) : List (Path × ByteArray) :=
  after.nodes.filterMap before.fileMade?

end World

end ShaderForge

/-
**Following a path.**

A path is followed from the root or from the working directory, one part after the other: `.` stays,
`..` goes to the parent (the root is its own), and a name goes on to what the directory holds under
it. Whatever has something after it must be a directory, and so must the last part when a slash
follows it.

* `target`: the place that a path leads to, of which the last name may still be free;
* `find`: what is there;
* `read`, `readText`, `entriesIn`, `isFile`, `isDirectory`, `size`: questions about it.
-/

import ShaderForge.Path.Basic
import ShaderForge.World.Basic
import ShaderForge.World.Fault

namespace ShaderForge.World

open Text (pieces)

/-! ## Part 1 — one step -/

/-- The entry name that a part of a path writes. -/
def entryName? (part : List Char) : Option EntryName :=
  if usable : isEntryName (String.ofList part) = true then some ⟨String.ofList part, usable⟩
  else none

/-- The directory that a part leads to from a directory. -/
def enter (world : World) (place : Location) (part : List Char) : Except IoFault Location :=
  if part = ['.'] then pure place
  else if part = ['.', '.'] then pure place.tail
  else match entryName? part with
    | none => throw .nameTooLong
    | some name =>
      match world.node? (name :: place) with
      | none => throw .notFound
      | some (.file _) => throw .notADirectory
      | some .directory => pure (name :: place)

/-! ## Part 2 — the target of a path -/

/-- Where a path leads: to a directory that is surely there (the path ends in the root, `.` or
`..`), or to a name in a directory, which must itself be one if a slash follows it. -/
inductive Target
  | directory (place : Location)
  | entry (parent : Location) (name : EntryName) (slashed : Bool)

/-- The target of the parts of a path, from a directory. -/
def targetFrom (world : World) (slashed : Bool) : Location → List (List Char) →
    Except IoFault Target
  | place, [] => pure (.directory place)
  | place, [part] =>
    if part = ['.'] then pure (.directory place)
    else if part = ['.', '.'] then pure (.directory place.tail)
    else match entryName? part with
      | none => throw .nameTooLong
      | some name => pure (.entry place name slashed)
  | place, part :: next :: parts =>
    match world.enter place part with
    | .error fault => throw fault
    | .ok inner => world.targetFrom slashed inner (next :: parts)

/-- Where a path begins. -/
def start (world : World) (path : Path) : Location :=
  if path.isAbsolute then [] else world.cwd

/-- **The target of a path.** -/
def target (world : World) (path : Path) : Except IoFault Target :=
  if path.isEmpty then throw .notFound
  else if path.text.toList.contains (Char.ofNat 0) then throw .nulInName
  else if 4096 ≤ path.text.utf8ByteSize then throw .nameTooLong
  else if !world.hasDirectory (world.start path) then throw .notFound
  else world.targetFrom (path.text.toList.getLast? == some '/') (world.start path)
    ((pieces '/' path.text.toList).filter (· ≠ []))

/-! ## Part 3 — what is at the target -/

/-- The place and the node of a target. -/
def nodeOf (world : World) : Target → Except IoFault (Location × Node)
  | .directory place => pure (place, .directory)
  | .entry parent name slashed =>
    match world.node? (name :: parent) with
    | none => throw .notFound
    | some node =>
      if slashed && node.isFile then throw .notADirectory else pure (name :: parent, node)

/-- **What a path leads to**, with its location. -/
def find (world : World) (path : Path) : Except IoFault (Location × Node) := do
  world.nodeOf (← world.target path)

/-- What a path leads to, if anything. -/
def find? (world : World) (path : Path) : Option (Location × Node) := (world.find path).toOption

/-- Whether a path leads to a file. -/
def isFile (world : World) (path : Path) : Bool :=
  match world.find? path with
  | some (_, node) => node.isFile
  | none => false

/-- Whether a path leads to a directory. -/
def isDirectory (world : World) (path : Path) : Bool :=
  match world.find? path with
  | some (_, node) => node.isDirectory
  | none => false

/-- Whether a path leads to anything. -/
def isThere (world : World) (path : Path) : Bool := (world.find? path).isSome

/-- **The bytes of the file** that a path leads to. -/
def read (world : World) (path : Path) : Except IoFault ByteArray :=
  match world.find path with
  | .error fault => throw fault
  | .ok (_, .directory) => throw .isADirectory
  | .ok (_, .file bytes) => pure bytes

/-- The text of the file that a path leads to. -/
def readText (world : World) (path : Path) : Except IoFault String :=
  match world.read path with
  | .error fault => throw fault
  | .ok bytes =>
    match String.fromUTF8? bytes with
    | none => throw .notText
    | some text => pure text

/-- The number of bytes that a directory takes up. -/
def directorySize : Nat := 4096

/-- The number of bytes of what a path leads to; nothing for what is not there. -/
def size (world : World) (path : Path) : Nat :=
  match world.find? path with
  | some (_, .file bytes) => bytes.size
  | some (_, .directory) => directorySize
  | none => 0

/-- The names in a directory, with what they stand for. -/
def children (world : World) (place : Location) : List (EntryName × Node) :=
  world.nodes.filterMap fun entry =>
    match entry.1 with
    | name :: parent => if parent = place then some (name, entry.2) else none
    | [] => none

/-- The entries of the directory that a path leads to. -/
def entriesIn (world : World) (path : Path) : Except IoFault (List (EntryName × Node)) :=
  match world.find path with
  | .error fault => throw fault
  | .ok (_, .file _) => throw .notADirectory
  | .ok (place, .directory) => pure (world.children place)

end ShaderForge.World

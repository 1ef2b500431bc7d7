/-
**Changing files.**

Operations that change a world through a path. Each either fails and leaves the world as it was, or
gives the changed world; only `makeDirectories` can fail with part of its work done, and so it is an
action on a world (`Disk`).

* `write`: a file with given bytes, new or in place of the one that was there;
* `writeNew`: the same, but never over anything;
* `makeDirectory`, `makeDirectories`: a directory, or it and every missing one above it;
* `removeFile`, `removeAny`.
-/

import ShaderForge.World.Lookup

namespace ShaderForge

namespace World

/-! ## Part 1 — at a location -/

/-- A file at a location whose parent is a directory; a directory is never replaced. -/
def storeAt (world : World) (parent : Location) (name : EntryName) (bytes : ByteArray) :
    Except IoFault World :=
  if inside : world.hasDirectory parent = true then
    if taken : world.hasDirectory (name :: parent) = true then throw .isADirectory
    else pure (world.holding name parent (.file bytes) (hasDirectory_iff.mp inside)
      (.inr fun there => taken (hasDirectory_iff.mpr there)))
  else throw .notFound

/-- A new directory at a location whose parent is a directory. -/
def addDirectoryAt (world : World) (parent : Location) (name : EntryName) : Except IoFault World :=
  if inside : world.hasDirectory parent = true then
    if (world.node? (name :: parent)).isSome then throw .alreadyExists
    else pure (world.holding name parent .directory (hasDirectory_iff.mp inside) (.inl rfl))
  else throw .notFound

/-! ## Part 2 — through a path -/

/-- **A file with given bytes**, new or in place of the file that was there. -/
def write (world : World) (path : Path) (bytes : ByteArray) : Except IoFault World :=
  match world.target path with
  | .error fault => throw fault
  | .ok (.directory _) => throw .isADirectory
  | .ok (.entry parent name slashed) =>
    if slashed then throw .isADirectory else world.storeAt parent name bytes

/-- **A new file with given bytes**, where nothing was. -/
def writeNew (world : World) (path : Path) (bytes : ByteArray) : Except IoFault World :=
  match world.target path with
  | .error fault => throw fault
  | .ok (.directory _) => throw .alreadyExists
  | .ok (.entry parent name slashed) =>
    if slashed then throw .isADirectory
    else if (world.node? (name :: parent)).isSome then throw .alreadyExists
    else world.storeAt parent name bytes

/-- **A new directory.** -/
def makeDirectory (world : World) (path : Path) : Except IoFault World :=
  match world.target path with
  | .error fault => throw fault
  | .ok (.directory _) => throw .alreadyExists
  | .ok (.entry parent name _) => world.addDirectoryAt parent name

/-- The world without the file that a path leads to. -/
def removeFile (world : World) (path : Path) : Except IoFault World :=
  match world.find path with
  | .error fault => throw fault
  | .ok (_, .directory) => throw .isADirectory
  | .ok (place, .file _) => pure (world.eraseTree place)

/-- The world without what a path leads to, and without all that is below it. -/
def removeAny (world : World) (path : Path) : Except IoFault World :=
  match world.find path with
  | .error fault => throw fault
  | .ok (place, _) => pure (world.eraseTree place)

end World

/-! ## Part 3 — actions -/

/-- An action on a world that may fail with part of its work done. -/
abbrev Disk := ExceptT IoFault (StateM World)

namespace Disk

/-- An operation that changes the world or fails and leaves it. -/
def change (operation : World → Except IoFault World) : Disk Unit := do
  match operation (← get) with
  | .error fault => throw fault
  | .ok changed => set changed

/-- A directory, if there is none yet. -/
def ensureDirectory (path : Path) : Disk Unit := do
  let world ← get
  match world.makeDirectory path with
  | .ok changed => set changed
  | .error fault => if world.isDirectory path then pure () else throw fault

/-- The first of some paths as a directory; the others are its parents, nearest first, and are made
when the first one is missing them. -/
def ensureDirectories : List Path → Disk Unit
  | [] => throw .noPlace
  | path :: above => do
    if path.components = [] then pure ()
    else
      let world ← get
      match world.makeDirectory path with
      | .ok changed => set changed
      | .error .notFound =>
        ensureDirectories above
        ensureDirectory path
      | .error fault => if world.isDirectory path then pure () else throw fault

/-- **A directory and every missing one above it.** -/
def makeDirectories (path : Path) : Disk Unit := ensureDirectories (path :: path.parents)

/-- A file with given bytes. -/
def write (path : Path) (bytes : ByteArray) : Disk Unit :=
  change fun world => world.write path bytes

end Disk

end ShaderForge

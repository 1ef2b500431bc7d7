/-
**Finding configs and shaders.**

A job works on the configs and shaders anywhere below a root directory, told by the ends of their
names in any case. Paths found are relative to the root, sorted by components, each once.

A root is scanned under its text without slashes and backslashes at the end, and what is found
counts if its path begins with the components of the root. A root that begins with `.` has a
component that no path found has, and so nothing is found below it.

What is found is looked up under the path of the scan, in which slashes that follow slashes are
left out. If that path is too long to be followed, there is nothing.

A scan lists what it has seen to be a directory and nothing else, and a directory that can be
reached can be listed, as a world has no permissions and stays as it is during a scan. So no scan
breaks off with an error, and none has one to pass on.

* `found`: what lies below a root, with its relative path;
* `discoverFiles`, `discoverConfigs`, `discoverShaders`, `subdirectories`;
* `validateRoot`: a root holds at least one config and one shader.
-/

import ShaderForge.JobError
import ShaderForge.Path.Order

namespace ShaderForge

/-! ## Part 1 — scanning -/

/-- The text under which a root is scanned. -/
def scanText (root : Path) : List Char :=
  (root.text.toList.reverse.dropWhile fun c => c == '/' || c == '\\').reverse

/-- The directory that a scan begins in, if it is there. -/
def scanStart? (world : World) (root : Path) : Option Location :=
  match scanText root with
  | [] => some []
  | text =>
    match world.find? ⟨String.ofList text⟩ with
    | some (place, .directory) => some place
    | _ => none

/-- The names that lead from a directory to a location below it, outermost first. -/
def namesBelow? (place location : Location) : Option (List EntryName) :=
  if place.isSuffixOf location && decide (place.length < location.length) then
    some (location.take (location.length - place.length)).reverse
  else none

/-- The path of something found: the text of the scan, then the names. -/
def scannedPath (text : List Char) (names : List EntryName) : Path :=
  ⟨String.ofList (text ++ names.flatMap fun name => '/' :: name.text.toList)⟩

/-- A text without the slashes that follow slashes. -/
def squeezed : List Char → List Char
  | '/' :: '/' :: text => squeezed ('/' :: text)
  | c :: text => c :: squeezed text
  | [] => []

/-- The path under which something found is looked up. -/
def visitedPath (root : Path) (names : List EntryName) : Path :=
  scannedPath (squeezed (scanText root)) names

/-- Whether paths that are found can begin as the root does. -/
def isScannable (root : Path) : Bool := root.components.head? != some .here

/-- What a scan of a root from a place finds at a location: its path relative to the root. -/
def foundPath? (root : Path) (place location : Location) : Option Path := do
  let names ← namesBelow? place location
  if (visitedPath root names).text.utf8ByteSize < 4096 then
    (scannedPath (scanText root) names).stripped? root
  else none

/-- **What lies below a root**: its path relative to the root, and what it is. -/
def found (world : World) (root : Path) : List (Path × Node) :=
  if !isScannable root then []
  else match scanStart? world root with
    | none => []
    | some place =>
      world.nodes.filterMap fun (location, node) =>
        (foundPath? root place location).map fun path => (path, node)

/-! ## Part 2 — configs, shaders, directories -/

/-- Whether the name of a file counts: the part of its path after the last slash. -/
def hasName (wanted : String → Bool) (path : Path) : Bool :=
  match path.fileName? with
  | some name => wanted name
  | none => false

/-- The files below a root with certain names, in order. -/
def filesNamed (wanted : String → Bool) (world : World) (root : Path) : List Path :=
  Path.sorted (((found world root).filter fun (path, node) =>
    node.isFile && hasName wanted path).map Prod.fst)

/-- Whether a name is that of a config or a shader. -/
def isSourceName (name : String) : Bool := isConfigName name || isShaderName name

/-- **Every config and shader below a root.** -/
def discoverFiles (world : World) (root : Path) : List Path := filesNamed isSourceName world root

/-- Every config below a root. -/
def discoverConfigs (world : World) (root : Path) : List Path := filesNamed isConfigName world root

/-- Every shader below a root. -/
def discoverShaders (world : World) (root : Path) : List Path := filesNamed isShaderName world root

/-- **Every directory below a root.** -/
def subdirectories (world : World) (root : Path) : List Path :=
  Path.sorted (((found world root).filter fun (_, node) => node.isDirectory).map Prod.fst)

/-- What the scans for one suffix after the other find, each in the order of the tree. -/
def scanned (world : World) (root : Path) : List Path :=
  (configSuffix :: shaderSuffixes).flatMap fun suffix =>
    ((found world root).filter fun (path, node) =>
      node.isFile && hasName (Text.endsIgnoringCase suffix) path).map Prod.fst

/-- Whether paths bring a config and a shader, as far as they were not seen before; no further path
is looked at when both were seen. -/
def bringsBoth (config shader : Bool) : List Path → Bool
  | [] => false
  | path :: paths =>
    let config := config || isConfigName path.text
    let shader := shader || isShaderName path.text
    if config && shader then true else bringsBoth config shader paths

/-- **A root must hold a config and a shader.** -/
def validateRoot (world : World) (root : Path) : Except JobError Unit :=
  if bringsBoth false false (scanned world root) then pure () else throw (.invalidInput root)

end ShaderForge

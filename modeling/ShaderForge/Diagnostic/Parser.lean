/-
**From compiler output to diagnostics.**

Every block that is an error or a warning and says anything becomes one diagnostic. A place at its
front counts only if the path in it names an existing file; otherwise the whole body is the message
and the finding belongs to the primary config. Existence is what tells a place from a message that
merely has a colon in it.

* `Resolver.locate?`: the file that a reference names;
* `Reader.parse`: the diagnostics of a text.
-/

import ShaderForge.Diagnostic.Block
import ShaderForge.Diagnostic.Grammar
import ShaderForge.Resolver
import ShaderForge.World.Lookup

namespace ShaderForge

open Text (trimChars)

/-- **The file that a reference names**: itself if it is absolute, or else below the root of the
job, or else below the working directory. -/
def Resolver.locate? (resolver : Resolver) (world : World) (root : Path) (reference : String) :
    Option Path :=
  let wanted : Path := ⟨Text.trim reference⟩
  if wanted.isEmpty then none
  else if wanted.isAbsolute then (if world.isFile wanted then some wanted else none)
  else [root.join wanted, resolver.cwd.join wanted].find? world.isFile

/-- What the output of a compiler is read with: the files that are there, where references begin,
the root of the job, and the config that findings without a place belong to. -/
structure OutputReader where
  world : World
  resolver : Resolver
  root : Path
  primary : Path

namespace OutputReader

/-- The file that a reference names. -/
def locate? (reader : OutputReader) (reference : List Char) : Option Path :=
  reader.resolver.locate? reader.world reader.root (String.ofList reference)

/-- The number that digits write, within 32 bits. -/
def position? (digits : List Char) : Option Nat := Text.decimal? positionBound digits

/-- The place of a finding that names none. -/
def unlocated (reader : OutputReader) : SourceLocation := ⟨reader.primary, none, none⟩

/-- The place and the message of a body that begins with the place of an existing file. -/
def located? (reader : OutputReader) (body : List Char) : Option (SourceLocation × List Char) := do
  let place ← placePrefix? body
  let file ← reader.locate? place.path
  let rest := trimChars place.rest
  pure (⟨file, place.line.bind position?, place.column.bind position?⟩,
    if rest.isEmpty then body else rest)

/-- One nested message; without a place of its own it has that of the whole finding. -/
def relatedOf (reader : OutputReader) (fallback : SourceLocation) (segment : List Char) :
    RelatedLocation :=
  let found? : Option RelatedLocation := do
    let (path, digits, rest) ← lineLocation? segment
    let file ← reader.locate? path
    let line ← position? digits
    pure ⟨file, some line, String.ofList (trimChars rest)⟩
  found?.getD ⟨fallback.file, fallback.line, String.ofList segment⟩

/-- The nested messages of a finding. -/
def relatedIn (reader : OutputReader) (fallback : SourceLocation) (message : List Char) :
    List RelatedLocation :=
  if isToolReport message then (reports message).map (reader.relatedOf fallback) else []

/-- **The finding that a body reports.** -/
def diagnosticOf (reader : OutputReader) (severity : Severity) (body : List Char) : Diagnostic :=
  let (location, message) := (reader.located? body).getD (reader.unlocated, body)
  { severity, location
    message := String.ofList message
    related := reader.relatedIn location message }

/-- The finding of a block, if it is one. -/
def ofBlock? (reader : OutputReader) (block : Block) : Option Diagnostic :=
  match block.tag.severity? with
  | none => none
  | some severity =>
    if block.body.isEmpty then none else some (reader.diagnosticOf severity block.body)

/-- **The findings in a text**, in order. -/
def parse (reader : OutputReader) (text : String) : List Diagnostic :=
  (blocks text).filterMap reader.ofBlock?

end OutputReader

end ShaderForge

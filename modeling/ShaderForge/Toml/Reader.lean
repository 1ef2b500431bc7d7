/-
**Reading TOML.**

A document is a sequence of lines: a header that names the table for the lines after it, an entry
`key = value`, or nothing, each with a comment after it if need be. Values may nest 79 levels.

* `readKey`: a key with its parts;
* `readValue`: a value;
* `readLine`: one line, and the state of the document after it;
* `read`: a whole document.
-/

import ShaderForge.Toml.Number
import ShaderForge.Toml.Text

namespace ShaderForge.Toml

/-! ## Part 1 — keys -/

/-- A character of a key without quotes. -/
def isBare (c : Char) : Bool := c.isAlphanum || c == '_' || c == '-'

/-- One part of a key. -/
def readPart (cs : List Char) : Option (String × List Char) :=
  match cs with
  | '"' :: rest => (readBasic rest).map fun (content, rest) => (String.ofList content, rest)
  | '\'' :: rest => (readLiteral rest).map fun (content, rest) => (String.ofList content, rest)
  | _ =>
    let bare := cs.takeWhile isBare
    if bare.isEmpty then none else some (String.ofList bare, cs.dropWhile isBare)

/-- The parts of a key, with points between them and blanks around them; at most `bound` parts. -/
def readParted : Nat → List Char → Option (List String × List Char)
  | 0, _ => none
  | bound + 1, cs =>
    match readPart (skipSpaces cs) with
    | none => none
    | some (part, rest) =>
      match skipSpaces rest with
      | '.' :: more => (readParted bound more).map fun (parts, after) => (part :: parts, after)
      | after => some ([part], after)

/-- How deep a document may nest, and one more. -/
def depthBound : Nat := 80

/-- **A key**: the parts before the last one, the last one, and the text after blanks. -/
def readKey (cs : List Char) : Option (List String × String × List Char) :=
  match readParted (depthBound - 1) cs with
  | none => none
  | some (parts, rest) => parts.getLast?.map fun last => (parts.dropLast, last, rest)

/-! ## Part 2 — blanks over several lines -/

/-- The text after a comment, up to the end of its line; none if the comment holds a control. -/
def skipComment : List Char → Option (List Char)
  | [] => some []
  | '\n' :: rest => some ('\n' :: rest)
  | '\r' :: '\n' :: rest => some ('\r' :: '\n' :: rest)
  | c :: rest => if isLineChar c then skipComment rest else none

/-- The text after blanks, comments and line ends; `bound` is at least the number of lines. -/
def skipLines : Nat → List Char → Option (List Char)
  | 0, _ => none
  | bound + 1, cs =>
    match skipSpaces cs with
    | '\n' :: rest => skipLines bound rest
    | '\r' :: '\n' :: rest => skipLines bound rest
    | '#' :: rest => (skipComment rest).bind (skipLines bound)
    | other => some other

/-- The text after blanks, comments and line ends. -/
def skipAll (cs : List Char) : Option (List Char) := skipLines (cs.length + 1) cs

/-! ## Part 3 — values -/

/-- A given word at the front. -/
def afterWord (word : String) (cs : List Char) : Option (List Char) :=
  if word.toList.isPrefixOf cs then some (cs.drop word.length) else none

/-- A value that is neither text nor nested. -/
def readPlain (cs : List Char) : Option (Toml × List Char) :=
  let found (kind : PlainKind) (rest : List Char) : Toml × List Char := (.plain kind, rest)
  ((afterWord "true" cs).map (found .boolean)).or
    (((afterWord "false" cs).map (found .boolean)).or
      (((readMoment cs).map (found .moment)).or
        ((readNumber cs).map fun (kind, rest) => found kind rest)))

/-- The items of a list after the opening bracket or a comma, up to the closing bracket. -/
def readItems (item : List Char → Option (Toml × List Char)) : Nat → List Char →
    Option (List Char)
  | 0, _ => none
  | bound + 1, cs =>
    match skipAll cs with
    | none => none
    | some (']' :: after) => some after
    | some start =>
      match item start with
      | none => none
      | some (_, rest) =>
        match skipAll rest with
        | some (']' :: after) => some after
        | some (',' :: more) => readItems item bound more
        | _ => none

/-- The entries of a table in braces, after the opening brace or a comma, up to the closing one. -/
def readEntries (item : List Char → Option (Toml × List Char)) :
    Nat → Entries → List Char → Option (Entries × List Char)
  | 0, _, _ => none
  | bound + 1, entries, cs =>
    match readKey cs with
    | some (path, key, '=' :: rest) =>
      match item (skipSpaces rest) with
      | none => none
      | some (value, rest) =>
        match assign true key value path entries with
        | none => none
        | some entries =>
          match skipSpaces rest with
          | '}' :: after => some (entries, after)
          | ',' :: more => readEntries item bound entries more
          | _ => none
    | _ => none

/-- **A value**, nested at most `depth - 1` levels. -/
def readValue : Nat → List Char → Option (Toml × List Char)
  | 0, _ => none
  | depth + 1, cs =>
    match cs with
    | '[' :: inside =>
      if depth = 0 then none
      else (readItems (readValue depth) (inside.length + 1) inside).map fun after =>
        (.plain .list, after)
    | '{' :: inside =>
      if depth = 0 then none
      else match skipSpaces inside with
        | '}' :: after => some (.table .inline [], after)
        | start => (readEntries (readValue depth) (inside.length + 1) [] start).map
            fun (entries, after) => (.table .inline entries, after)
    | '"' :: _ => (readText cs).map fun (content, rest) => (.text content, rest)
    | '\'' :: _ => (readText cs).map fun (content, rest) => (.text content, rest)
    | _ => readPlain cs

/-! ## Part 4 — documents -/

/-- A document up to a line: its entries, and the table that the next entries go to. -/
structure Draft where
  entries : Entries
  current : List String

/-- The rest after the end of a line, which may hold a comment. -/
def endLine (cs : List Char) : Option (List Char) :=
  let ended : List Char → Option (List Char)
    | [] => some []
    | '\n' :: rest => some rest
    | '\r' :: '\n' :: rest => some rest
    | _ => none
  match skipSpaces cs with
  | '#' :: rest => (skipComment rest).bind ended
  | other => ended other

/-- A draft after the header of a table. -/
def Draft.head (draft : Draft) (path : List String) (name : String)
    (make : String → Entries → Option Entries) : Option Draft :=
  (within (make name) path draft.entries).map fun entries =>
    { entries, current := path ++ [name] }

/-- A draft after an entry. -/
def Draft.enter (draft : Draft) (path : List String) (key : String) (value : Toml) : Option Draft :=
  (within (assign true key value path) draft.current draft.entries).map fun entries =>
    { draft with entries }

/-- **One line**: the draft after it, and the text after its end. -/
def readLine (draft : Draft) (cs : List Char) : Option (Draft × List Char) :=
  match skipSpaces cs with
  | '[' :: '[' :: rest =>
    match readKey rest with
    | some (path, name, ']' :: ']' :: after) => do
      pure (← draft.head path name headElement, ← endLine after)
    | _ => none
  | '[' :: rest =>
    match readKey rest with
    | some (path, name, ']' :: after) => do
      pure (← draft.head path name headTable, ← endLine after)
    | _ => none
  | other =>
    match endLine other with
    | some after => some (draft, after)
    | none =>
      match readKey other with
      | some (path, key, '=' :: rest) =>
        match readValue depthBound (skipSpaces rest) with
        | none => none
        | some (value, after) => do pure (← draft.enter path key value, ← endLine after)
      | _ => none

/-- The entries of all lines of a text; `bound` is at least their number. -/
def readLinesFrom : Nat → Draft → List Char → Option Entries
  | _, draft, [] => some draft.entries
  | 0, _, _ :: _ => none
  | bound + 1, draft, c :: cs =>
    match readLine draft (c :: cs) with
    | none => none
    | some (draft, rest) => readLinesFrom bound draft rest

/-- The text without a byte order mark in front. -/
def withoutMark : List Char → List Char
  | c :: cs => if c.toNat = 0xFEFF then cs else c :: cs
  | [] => []

/-- **A whole document.** -/
def read (text : String) : Option Entries :=
  let cs := withoutMark text.toList
  readLinesFrom (cs.length + 1) ⟨[], []⟩ cs

end ShaderForge.Toml

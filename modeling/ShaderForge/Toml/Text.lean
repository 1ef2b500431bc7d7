/-
**Text in TOML.**

Text is written in one of four forms: between double quotes with escapes (*basic*), between single
quotes without (*literal*), and each of these between tripled quotes over several lines. In the long
forms a newline right after the opening quotes does not count, up to two quotes may stand before the
closing ones, and a line end is always read as one newline. A backslash at the end of a line in the
long basic form joins the line with what follows it.

* `readBasic`, `readLiteral`, `readLongBasic`, `readLongLiteral`: text up to its closing quotes;
* `readText`: text in any form;
* `Form`, `formOf`: the form in which a text is written;
* `writeText`: a text in its form.
-/

namespace ShaderForge.Toml

/-! ## Part 1 — characters -/

/-- Blanks within a line. -/
def isSpace (c : Char) : Bool := c == ' ' || c == '\t'

/-- Characters that may stand in a line: no controls but the tab. -/
def isLineChar (c : Char) : Bool := c == '\t' || (decide (0x20 ≤ c.toNat) && c.toNat != 0x7F)

/-- The text after blanks within a line. -/
def skipSpaces (cs : List Char) : List Char := cs.dropWhile isSpace

/-- The value of hexadecimal digits. -/
def hexValue? : List Char → Option Nat
  | digits => digits.foldl (fun value digit => do
      let value ← value
      if '0' ≤ digit && digit ≤ '9' then some (value * 16 + (digit.toNat - '0'.toNat))
      else if 'a' ≤ digit && digit ≤ 'f' then some (value * 16 + (digit.toNat - 'a'.toNat + 10))
      else if 'A' ≤ digit && digit ≤ 'F' then some (value * 16 + (digit.toNat - 'A'.toNat + 10))
      else none) (some 0)

/-- The character with the code that hexadecimal digits write. -/
def charOfHex? (digits : List Char) : Option Char := do
  let code ← hexValue? digits
  if code < 0xD800 || (0xDFFF < code && code < 0x110000) then some (Char.ofNat code) else none

/-- The character of an escape by one letter. -/
def letterEscape? (c : Char) : Option Char :=
  if c = '"' then some '"'
  else if c = '\\' then some '\\'
  else if c = 'b' then some (Char.ofNat 8)
  else if c = 't' then some '\t'
  else if c = 'n' then some '\n'
  else if c = 'f' then some (Char.ofNat 12)
  else if c = 'r' then some '\r'
  else none

/-! ## Part 2 — reading -/

/-- A character in front of what was read. -/
def withChar (c : Char) (read : Option (List Char × List Char)) : Option (List Char × List Char) :=
  read.map fun (content, rest) => (c :: content, rest)

/-- **Basic text** up to its closing quote. -/
def readBasic : List Char → Option (List Char × List Char)
  | [] => none
  | '"' :: rest => some ([], rest)
  | '\\' :: 'u' :: a :: b :: c :: d :: rest =>
    match charOfHex? [a, b, c, d] with
    | none => none
    | some found => withChar found (readBasic rest)
  | '\\' :: 'U' :: a :: b :: c :: d :: e :: f :: g :: h :: rest =>
    match charOfHex? [a, b, c, d, e, f, g, h] with
    | none => none
    | some found => withChar found (readBasic rest)
  | '\\' :: c :: rest =>
    match letterEscape? c with
    | none => none
    | some found => withChar found (readBasic rest)
  | c :: rest => if c ≠ '\\' && isLineChar c then withChar c (readBasic rest) else none

/-- **Literal text** up to its closing quote. -/
def readLiteral : List Char → Option (List Char × List Char)
  | [] => none
  | '\'' :: rest => some ([], rest)
  | c :: rest => if isLineChar c then withChar c (readLiteral rest) else none

/-- What stands after closing quotes: up to two more quotes belong to the text. -/
def afterClosing (quote : Char) : List Char → List Char × List Char
  | first :: second :: rest =>
    if first = quote then
      if second = quote then ([quote, quote], rest) else ([quote], second :: rest)
    else ([], first :: second :: rest)
  | [first] => if first = quote then ([quote], []) else ([], [first])
  | [] => ([], [])

/-- Whether a line ends here, blanks aside. -/
def lineEndsHere (cs : List Char) : Bool :=
  match skipSpaces cs with
  | '\n' :: _ => true
  | '\r' :: '\n' :: _ => true
  | _ => false

/-- **Long basic text** up to its closing quotes. While `joining`, blanks and line ends are skipped.
-/
def readLongBasic (joining : Bool) : List Char → Option (List Char × List Char)
  | [] => none
  | '"' :: '"' :: '"' :: rest => some (afterClosing '"' rest)
  | '\r' :: '\n' :: rest =>
    if joining then readLongBasic true rest else withChar '\n' (readLongBasic false rest)
  | '\n' :: rest =>
    if joining then readLongBasic true rest else withChar '\n' (readLongBasic false rest)
  | '\\' :: 'u' :: a :: b :: c :: d :: rest =>
    match charOfHex? [a, b, c, d] with
    | none => none
    | some found => withChar found (readLongBasic false rest)
  | '\\' :: 'U' :: a :: b :: c :: d :: e :: f :: g :: h :: rest =>
    match charOfHex? [a, b, c, d, e, f, g, h] with
    | none => none
    | some found => withChar found (readLongBasic false rest)
  | '\\' :: c :: rest =>
    if lineEndsHere (c :: rest) then readLongBasic true (c :: rest)
    else match letterEscape? c with
      | none => none
      | some found => withChar found (readLongBasic false rest)
  | c :: rest =>
    if joining && isSpace c then readLongBasic true rest
    else if c ≠ '\\' && isLineChar c then withChar c (readLongBasic false rest)
    else none

/-- **Long literal text** up to its closing quotes. -/
def readLongLiteral : List Char → Option (List Char × List Char)
  | [] => none
  | '\'' :: '\'' :: '\'' :: rest => some (afterClosing '\'' rest)
  | '\r' :: '\n' :: rest => withChar '\n' (readLongLiteral rest)
  | '\n' :: rest => withChar '\n' (readLongLiteral rest)
  | c :: rest => if isLineChar c then withChar c (readLongLiteral rest) else none

/-- The text after a line end at the front, if there is one. -/
def skipLineEnd : List Char → List Char
  | '\n' :: rest => rest
  | '\r' :: '\n' :: rest => rest
  | cs => cs

/-- **Text in any form**, and what follows it. -/
def readText : List Char → Option (String × List Char)
  | '"' :: '"' :: '"' :: rest =>
    (readLongBasic false (skipLineEnd rest)).map fun (content, rest) =>
      (String.ofList content, rest)
  | '"' :: rest => (readBasic rest).map fun (content, rest) => (String.ofList content, rest)
  | '\'' :: '\'' :: '\'' :: rest =>
    (readLongLiteral (skipLineEnd rest)).map fun (content, rest) => (String.ofList content, rest)
  | '\'' :: rest => (readLiteral rest).map fun (content, rest) => (String.ofList content, rest)
  | _ => none

/-! ## Part 3 — the form of a text -/

/-- The forms that text is written in. -/
inductive Form
  | basic
  | literal
  | longBasic
  | longLiteral
deriving DecidableEq

/-- The length of the longest run of a character; `run` is the length of the one at hand. -/
def longestRun (wanted : Char) (run : Nat) : List Char → Nat
  | [] => run
  | c :: cs =>
    if c = wanted then longestRun wanted (run + 1) cs else max run (longestRun wanted 0 cs)

/-- A control character that is written as an escape in every form: all but tab and newline. -/
def needsCode (c : Char) : Bool :=
  c != '\t' && c != '\n' && (decide (c.toNat < 0x20) || c.toNat == 0x7F)

/-- **The form of a text**: the plainest one that needs no escapes, if there is one. -/
def formOf (cs : List Char) : Form :=
  let codes := cs.any needsCode
  let backslash := cs.contains '\\'
  let newline := cs.contains '\n'
  let doubles := longestRun '"' 0 cs
  let singles := longestRun '\'' 0 cs
  if !codes && !backslash && doubles = 0 && !newline then .basic
  else if !codes && singles = 0 && !newline then .literal
  else if !codes && !backslash && doubles ≤ 2 then .longBasic
  else if !codes && singles ≤ 2 then .longLiteral
  else if newline then .longBasic
  else .basic

/-! ## Part 4 — writing -/

/-- A hexadecimal digit in upper case. -/
def upperHex (value : Nat) : Char := (Nat.digitChar (value % 16)).toUpper

/-- A control character by its code. -/
def codeEscape (c : Char) : List Char :=
  ['\\', 'u', '0', '0', upperHex (c.toNat / 16), upperHex c.toNat]

/-- A character in basic text, quotes and newlines aside. -/
def writeChar (c : Char) : List Char :=
  if c.toNat = 8 then ['\\', 'b']
  else if c = '\t' then ['\\', 't']
  else if c.toNat = 12 then ['\\', 'f']
  else if c = '\r' then ['\\', 'r']
  else if c = '\\' then ['\\', '\\']
  else if needsCode c then codeEscape c
  else [c]

/-- The characters of basic text. In the long form newlines stand for themselves, and so do up to
two quotes in a row; `run` counts those just written. -/
def writeBasic (long : Bool) (run : Nat) : List Char → List Char
  | [] => []
  | c :: cs =>
    if c = '"' then
      if long && decide (run < 2) then '"' :: writeBasic long (run + 1) cs
      else '\\' :: '"' :: writeBasic long 0 cs
    else if c = '\n' then
      if long then '\n' :: writeBasic long 0 cs else '\\' :: 'n' :: writeBasic long 0 cs
    else writeChar c ++ writeBasic long 0 cs

/-- A line end after the opening quotes of a text that has line ends. -/
def opening (cs : List Char) : List Char := if cs.contains '\n' then ['\n'] else []

/-- A text in a given form. -/
def writeIn (form : Form) (cs : List Char) : List Char :=
  match form with
  | .basic => '"' :: writeBasic false 0 cs ++ ['"']
  | .literal => '\'' :: cs ++ ['\'']
  | .longBasic => ['"', '"', '"'] ++ opening cs ++ writeBasic true 0 cs ++ ['"', '"', '"']
  | .longLiteral => ['\'', '\'', '\''] ++ opening cs ++ cs ++ ['\'', '\'', '\'']

/-- **A text in its form.** -/
def writeText (text : String) : List Char := writeIn (formOf text.toList) text.toList

end ShaderForge.Toml

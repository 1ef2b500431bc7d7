/-
**Reading JSON.**

A document is one value with blanks around it. A value is read with a bound on how deep it may still
nest; a list or an object needs one level for itself, and its items are read with one level less.

Text between quotes holds no raw control characters, and an escaped surrogate counts only as the
first half of a pair. Of fields with one name the last one wins.

* `readText`: text up to its closing quote;
* `readValue`: a value at the front of a text;
* `read`: a whole document.
-/

import ShaderForge.Json.Numeral

namespace ShaderForge.Json

/-- The text after blanks. -/
def skipBlanks (cs : List Char) : List Char :=
  cs.dropWhile fun c => c == ' ' || c == '\n' || c == '\t' || c == '\r'

/-! ## Part 1 — text -/

/-- The value of a hexadecimal digit. -/
def hexDigit? (c : Char) : Option Nat :=
  if '0' ≤ c && c ≤ '9' then some (c.toNat - '0'.toNat)
  else if 'a' ≤ c && c ≤ 'f' then some (c.toNat - 'a'.toNat + 10)
  else if 'A' ≤ c && c ≤ 'F' then some (c.toNat - 'A'.toNat + 10)
  else none

/-- The code that four hexadecimal digits write. -/
def hexCode? (a b c d : Char) : Option Nat := do
  pure ((((← hexDigit? a) * 16 + (← hexDigit? b)) * 16 + (← hexDigit? c)) * 16 + (← hexDigit? d))

/-- A code that stands for the first half of a pair. -/
def isHighHalf (code : Nat) : Bool := decide (0xD800 ≤ code) && decide (code ≤ 0xDBFF)

/-- A code that stands for the second half of a pair. -/
def isLowHalf (code : Nat) : Bool := decide (0xDC00 ≤ code) && decide (code ≤ 0xDFFF)

/-- The character of an escape by one letter. -/
def letterEscape? (c : Char) : Option Char :=
  if c = '"' then some '"'
  else if c = '\\' then some '\\'
  else if c = '/' then some '/'
  else if c = 'b' then some (Char.ofNat 8)
  else if c = 'f' then some (Char.ofNat 12)
  else if c = 'n' then some '\n'
  else if c = 'r' then some '\r'
  else if c = 't' then some '\t'
  else none

/-- **Text up to the closing quote**, and what follows it. -/
def readText : List Char → Option (List Char × List Char)
  | [] => none
  | '"' :: rest => some ([], rest)
  | '\\' :: 'u' :: a :: b :: c :: d :: rest =>
    match hexCode? a b c d with
    | none => none
    | some code =>
      if isLowHalf code then none
      else if isHighHalf code then
        match rest with
        | '\\' :: 'u' :: e :: f :: g :: h :: more =>
          match hexCode? e f g h with
          | none => none
          | some half =>
            if isLowHalf half then
              (readText more).map fun (content, after) =>
                (Char.ofNat (0x10000 + (code - 0xD800) * 0x400 + (half - 0xDC00)) :: content, after)
            else none
        | _ => none
      else (readText rest).map fun (content, after) => (Char.ofNat code :: content, after)
  | '\\' :: c :: rest =>
    match letterEscape? c with
    | none => none
    | some escaped => (readText rest).map fun (content, after) => (escaped :: content, after)
  | c :: rest =>
    if c = '\\' ∨ c.toNat < 0x20 then none
    else (readText rest).map fun (content, after) => (c :: content, after)

/-! ## Part 2 — values -/

/-- Items of a list after the first bracket or comma, up to the closing bracket; `bound` is at least
their number. -/
def readItems (item : List Char → Option (Json × List Char)) :
    Nat → List Char → Option (List Json × List Char)
  | 0, _ => none
  | bound + 1, cs =>
    match item (skipBlanks cs) with
    | none => none
    | some (value, rest) =>
      match skipBlanks rest with
      | ']' :: after => some ([value], after)
      | ',' :: more =>
        (readItems item bound more).map fun (values, after) => (value :: values, after)
      | _ => none

/-- Fields of an object after the first brace or comma, up to the closing brace, in the order of the
text. -/
def readFields (item : List Char → Option (Json × List Char)) :
    Nat → List Char → Option (List (String × Json) × List Char)
  | 0, _ => none
  | bound + 1, cs =>
    match skipBlanks cs with
    | '"' :: quoted =>
      match readText quoted with
      | none => none
      | some (name, rest) =>
        match skipBlanks rest with
        | ':' :: valued =>
          match item (skipBlanks valued) with
          | none => none
          | some (value, rest) =>
            let field := (String.ofList name, value)
            match skipBlanks rest with
            | '}' :: after => some ([field], after)
            | ',' :: more =>
              (readFields item bound more).map fun (fields, after) => (field :: fields, after)
            | _ => none
        | _ => none
    | _ => none

/-- Fields in the order of their names, each name once with its last value. -/
def gather (fields : List (String × Json)) : List (String × Json) :=
  fields.foldl (fun kept field => put field.1 field.2 kept) []

/-- The text after a given word at the front, if it is there. -/
def afterWord (word : String) (cs : List Char) : Option (List Char) :=
  if word.toList.isPrefixOf cs then some (cs.drop word.length) else none

/-- **A value at the front of a text** that is no blank, nested at most `depth - 1` levels. -/
def readValue : Nat → List Char → Option (Json × List Char)
  | 0, _ => none
  | depth + 1, cs =>
    match cs with
    | '"' :: quoted => (readText quoted).map fun (content, rest) =>
        (.text (String.ofList content), rest)
    | '[' :: inside =>
      if depth = 0 then none
      else match skipBlanks inside with
        | ']' :: after => some (.list [], after)
        | _ => (readItems (readValue depth) inside.length inside).map fun (items, after) =>
            (.list items, after)
    | '{' :: inside =>
      if depth = 0 then none
      else match skipBlanks inside with
        | '}' :: after => some (.object [], after)
        | _ => (readFields (readValue depth) inside.length inside).map fun (fields, after) =>
            (.object (gather fields), after)
    | 'n' :: _ => (afterWord "null" cs).map fun rest => (.null, rest)
    | 't' :: _ => (afterWord "true" cs).map fun rest => (.bool true, rest)
    | 'f' :: _ => (afterWord "false" cs).map fun rest => (.bool false, rest)
    | _ =>
      match scan cs with
      | none => none
      | some (numeral, rest) => (value? numeral).map fun number => (.number number, rest)

/-- How many levels a document may nest, and one more. -/
def depthBound : Nat := 128

/-- **A whole document**: one value with blanks around it. -/
def read (text : String) : Option Json :=
  match readValue depthBound (skipBlanks text.toList) with
  | none => none
  | some (value, rest) => if (skipBlanks rest).isEmpty then some value else none

end ShaderForge.Json

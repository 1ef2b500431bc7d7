/-
**Hosts.**

The host of an address is a domain name, an IPv4 address in any of its spellings (up to four parts
in base ten, eight or sixteen, the last one filling what is left), or an IPv6 address in brackets. A
host is kept as the text that stands for it in an address.

* `EndpointFault`: why a text is no address of a service;
* `readHost`: the host of an address over HTTP;
* `checkOpaqueHost`: whether a text may be a host elsewhere.
-/

import ShaderForge.Endpoint.Domain
import ShaderForge.Text.Utf8
import ShaderForge.Total

namespace ShaderForge

/-- Why a text is no address of a service. -/
inductive EndpointFault
  | relative
  | emptyHost
  | badPort
  | badIpv4
  | badIpv6
  | badDomain
  | badCharacter
  | otherScheme (scheme : String)
deriving DecidableEq

/-- The text of a fault. -/
def EndpointFault.message : EndpointFault → String
  | relative => "relative URL without a base"
  | emptyHost => "empty host"
  | badPort => "invalid port number"
  | badIpv4 => "invalid IPv4 address"
  | badIpv6 => "invalid IPv6 address"
  | badDomain => "invalid international domain name"
  | badCharacter => "invalid domain character"
  | otherScheme scheme => "unsupported scheme '" ++ scheme ++ "'"

namespace Endpoint

/-! ## Part 1 — numbers -/

/-- The value of a digit in bases up to sixteen. -/
def digitOf? (base : Nat) (c : Char) : Option Nat :=
  let value? :=
    if c.isDigit then some (c.toNat - '0'.toNat)
    else if 'a' ≤ c && c ≤ 'f' then some (c.toNat - 'a'.toNat + 10)
    else if 'A' ≤ c && c ≤ 'F' then some (c.toNat - 'A'.toNat + 10)
    else none
  value?.filter fun value => decide (value < base)

/-- The number that digits in a base write. -/
def numberIn? (base : Nat) (digits : List Char) : Option Nat :=
  digits.foldl (fun value digit => do pure ((← value) * base + (← digitOf? base digit))) (some 0)

/-- The number that a part of an IPv4 address writes: its base is told by how it begins. -/
def partNumber? : List Char → Option Nat
  | [] => none
  | '0' :: 'x' :: digits => numberIn? 16 digits
  | '0' :: 'X' :: digits => numberIn? 16 digits
  | '0' :: c :: digits => numberIn? 8 (c :: digits)
  | digits => numberIn? 10 digits

/-! ## Part 2 — IPv4 -/

/-- The parts of a name; a full stop at the end does not count. -/
def nameParts (name : List Char) : List (List Char) :=
  match (Text.pieces '.' name).reverse with
  | [] :: last :: rest => (last :: rest).reverse
  | parts => parts.reverse

/-- Whether a name is meant as a number: its last part is one. -/
def endsInNumber (name : List Char) : Bool :=
  match (nameParts name).getLast? with
  | none => false
  | some last => (!last.isEmpty && last.all Char.isDigit) || (partNumber? last).isSome

/-- Bytes of an address with full stops between them. -/
def dotted (address : Nat) : List Char :=
  Text.joinPieces '.' ((List.range 4).map fun place =>
    Nat.toDigits 10 (address / Nat.pow 256 (3 - place) % 256))

/-- The address that numbers write: each a byte, the last one all that is left. -/
def addressOf? (numbers : List Nat) : Option Nat :=
  match numbers.reverse with
  | [] => none
  | last :: rest =>
    let leading := rest.reverse
    if 3 < leading.length || leading.any (fun number => decide (255 < number))
        || decide (Nat.pow 256 (4 - leading.length) ≤ last) then none
    else
      let weighted := leading.zipIdx.map fun (number, place) => number * Nat.pow 256 (3 - place)
      some (total weighted + last)

/-- An IPv4 address in its one spelling. -/
def readIpv4 (name : List Char) : Except EndpointFault (List Char) :=
  match (nameParts name).mapM partNumber? with
  | none => throw .badIpv4
  | some numbers =>
    match addressOf? numbers with
    | none => throw .badIpv4
    | some address => pure (dotted address)

/-! ## Part 3 — IPv6 -/

/-- The two groups of an IPv4 address at the end of an IPv6 address: four bytes in base ten. -/
def tailGroups? (text : List Char) : Option (List Nat) := do
  let parts := Text.pieces '.' text
  if parts.length ≠ 4 then none
  let bytes ← parts.mapM fun part =>
    if part.isEmpty || 3 < part.length || (part.head? == some '0' && 1 < part.length) then none
    else (numberIn? 10 part).filter fun value => decide (value < 256)
  match bytes with
  | [a, b, c, d] => some [a * 256 + b, c * 256 + d]
  | _ => none

/-- The groups that a text between colons writes; the last part may be an IPv4 address. -/
def groups? (text : List Char) : Option (List Nat) :=
  if text.isEmpty then some []
  else
    let parts := Text.pieces ':' text
    let group? (part : List Char) : Option (List Nat) :=
      if part.isEmpty || 4 < part.length then none else (numberIn? 16 part).map fun value => [value]
    match parts.getLast? with
    | none => none
    | some last => do
      let leading ← parts.dropLast.mapM group?
      let final ← if last.contains '.' then tailGroups? last else group? last
      pure (leading.flatten ++ final)

/-- A text cut at the first double colon. -/
def atDoubleColon : List Char → Option (List Char × List Char)
  | ':' :: ':' :: rest => some ([], rest)
  | c :: rest => (atDoubleColon rest).map fun (before, after) => (c :: before, after)
  | [] => none

/-- The eight groups of an IPv6 address. -/
def readGroups (text : List Char) : Option (List Nat) :=
  match atDoubleColon text with
  | none => (groups? text).filter fun groups => groups.length = 8
  | some (before, after) =>
    if before.contains '.' then none
    else do
      let left ← groups? before
      let right ← groups? after
      if left.length + right.length ≤ 7 then
        pure (left ++ List.replicate (8 - left.length - right.length) 0 ++ right)
      else none

/-- The length of the run of zeros at the front. -/
def zeroRun (groups : List Nat) : Nat := (groups.takeWhile (· == 0)).length

/-- The longest run of at least two zeros: where it begins and how long it is; the first of equals.
-/
def longestZeros (groups : List Nat) : Option (Nat × Nat) :=
  ((List.range groups.length).foldl (fun (best : Nat × Nat) start =>
    if best.2 < zeroRun (groups.drop start) then (start, zeroRun (groups.drop start)) else best)
    (0, 1)) |> fun best => if 1 < best.2 then some best else none

/-- Groups in base sixteen with colons between them. -/
def colonSeparated (groups : List Nat) : List Char :=
  Text.joinPieces ':' (groups.map (Nat.toDigits 16))

/-- The one spelling of an IPv6 address. -/
def renderGroups (groups : List Nat) : List Char :=
  match longestZeros groups with
  | none => colonSeparated groups
  | some (start, length) =>
    colonSeparated (groups.take start) ++ [':', ':']
      ++ colonSeparated (groups.drop (start + length))

/-- An IPv6 address in brackets; the text begins with the opening one. -/
def readIpv6 (text : List Char) : Except EndpointFault (List Char) :=
  if text.getLast? ≠ some ']' then throw .badIpv6
  else match readGroups (text.drop 1).dropLast with
    | none => throw .badIpv6
    | some groups => pure ('[' :: renderGroups groups ++ [']'])

/-! ## Part 4 — hosts -/

/-- A text as bytes, each percent sign with two digits read as one byte. -/
def percentDecoded : List Char → List UInt8
  | '%' :: a :: b :: rest =>
    match digitOf? 16 a, digitOf? 16 b with
    | some high, some low => UInt8.ofNat (high * 16 + low) :: percentDecoded rest
    | _, _ => UInt8.ofNat '%'.toNat :: percentDecoded (a :: b :: rest)
  | c :: rest => (String.ofList [c]).toUTF8.data.toList ++ percentDecoded rest
  | [] => []

/-- **The host of an address over HTTP**, as it is written in the address. -/
def readHost (text : List Char) : Except EndpointFault (List Char) :=
  if text.head? = some '[' then readIpv6 text
  else match asciiDomain? (Text.decodeLossy ⟨(percentDecoded text).toArray⟩) with
    | none => throw .badDomain
    | some domain =>
      if domain.isEmpty then throw .emptyHost
      else if endsInNumber domain then readIpv4 domain
      else pure domain

/-- Whether a text may be a host where hosts are not read any further. -/
def checkOpaqueHost (text : List Char) : Except EndpointFault Unit :=
  if text.head? = some '[' then do
    let _ ← readIpv6 text
    pure ()
  else if text.any fun c => c.toNat == 0 || " #/:<>?@[\\]^|".toList.contains c then
    throw .badCharacter
  else pure ()

end Endpoint

end ShaderForge

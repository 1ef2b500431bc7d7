/-
**Addresses of a service.**

The address of a service is a URL over `http` or `https`. It is kept in its normal form: scheme and
host in small letters, the port left out when it is the usual one, `.` and `..` in the path
followed, and what may not stand in an address written as percent signs with two digits.

* `Endpoint.parse`: an address from its text, blanks around it aside;
* `Endpoint.text`: the normal form.
-/

import ShaderForge.Endpoint.Host
import ShaderForge.Text.Blank

namespace ShaderForge

/-- **The address of a service.** -/
structure Endpoint where
  scheme : String
  userinfo : String
  host : String
  port : Option Nat
  segments : List String
  query : Option String
  fragment : Option String
deriving DecidableEq

namespace Endpoint

/-- **The text of an address.** -/
def text (endpoint : Endpoint) : String :=
  endpoint.scheme ++ "://" ++ endpoint.userinfo ++ endpoint.host
    ++ (match endpoint.port with
      | none => ""
      | some port => ":" ++ String.ofList (Nat.toDigits 10 port))
    ++ String.join (endpoint.segments.map fun segment => "/" ++ segment)
    ++ (match endpoint.query with
      | none => ""
      | some query => "?" ++ query)
    ++ (match endpoint.fragment with
      | none => ""
      | some fragment => "#" ++ fragment)

/-! ## Part 1 — percent signs -/

/-- A byte as a percent sign and two digits. -/
def percentByte (byte : UInt8) : List Char :=
  let digit (value : Nat) : Char := (Nat.digitChar value).toUpper
  ['%', digit (byte.toNat / 16), digit (byte.toNat % 16)]

/-- Text in which the characters that may not stand there are replaced by percent signs: controls,
everything that is no ASCII, and those listed. -/
def encoded (listed : String) (cs : List Char) : List Char :=
  cs.flatMap fun c =>
    if c.toNat < 0x20 || 0x7F ≤ c.toNat || listed.toList.contains c then
      (String.ofList [c]).toUTF8.data.toList.flatMap percentByte
    else [c]

/-- What may not stand in a fragment. -/
def fragmentSet : String := " \"<>" ++ String.singleton (Char.ofNat 0x60)

/-- What may not stand in a segment of a path. -/
def pathSet : String := fragmentSet ++ "#?\x7b\x7d"

/-- What may not stand in a user's name or password. -/
def userinfoSet : String := pathSet ++ "/:;=@[\\]^|"

/-- What may not stand in a query. -/
def querySet : String := " \"#<>'"

/-! ## Part 2 — the parts of an address -/

/-- Whether a character ends the part of an address that names the host; `special` addresses count a
backslash as a slash. -/
def endsAuthority (special : Bool) (c : Char) : Bool :=
  c == '/' || c == '?' || c == '#' || (special && c == '\\')

/-- The user's part of an address and the rest: it goes up to the last `@` before the host ends. -/
def cutUserinfo (special : Bool) (cs : List Char) :
    Except EndpointFault (Option (List Char) × List Char) :=
  let authority := cs.takeWhile fun c => !endsAuthority special c
  if !authority.contains '@' then pure (none, cs)
  else
    let host := (authority.reverse.takeWhile (· != '@')).reverse
    let user := authority.take (authority.length - host.length - 1)
    let rest := cs.drop (authority.length - host.length)
    if user.isEmpty then
      match rest with
      | c :: _ => if endsAuthority special c then throw .emptyHost else pure (some [], rest)
      | [] => pure (some [], rest)
    else pure (some user, rest)

/-- The user's part as it is written in an address. -/
def renderUserinfo (user : List Char) : List Char :=
  let name := encoded userinfoSet (user.takeWhile (· != ':'))
  let password := encoded userinfoSet ((user.dropWhile (· != ':')).drop 1)
  let both := if password.isEmpty then name else name ++ ':' :: password
  if both.isEmpty then [] else both ++ ['@']

/-- The host of an address and the rest; a colon does not end it between brackets. -/
def cutHost (special : Bool) (bracketed : Bool) : List Char → List Char × List Char
  | [] => ([], [])
  | c :: cs =>
    if endsAuthority special c || (c == ':' && !bracketed) then ([], c :: cs)
    else
      let next := if c == '[' then true else if c == ']' then false else bracketed
      let (host, rest) := cutHost special next cs
      (c :: host, rest)

/-- The port of an address and the rest, where a port may stand. -/
def cutPort : List Char → Except EndpointFault (Option Nat × List Char)
  | ':' :: cs =>
    let digits := cs.takeWhile Char.isDigit
    let rest := cs.dropWhile Char.isDigit
    match numberIn? 10 digits with
    | none => throw .badPort
    | some port =>
      if 65535 < port then throw .badPort
      else match rest with
        | [] => pure (if digits.isEmpty then none else some port, rest)
        | c :: _ =>
          if c == '/' || c == '\\' || c == '?' || c == '#' then
            pure (if digits.isEmpty then none else some port, rest)
          else throw .badPort
  | cs => pure (none, cs)

/-- Whether a segment stands for the directory it is in. -/
def isDot (segment : List Char) : Bool :=
  segment == ['.'] || segment == ['%', '2', 'e'] || segment == ['%', '2', 'E']

/-- Whether a segment stands for the directory above. -/
def isDoubleDot (segment : List Char) : Bool :=
  let dots : List (List Char) := [['.'], ['%', '2', 'e'], ['%', '2', 'E']]
  dots.any fun first => dots.any fun second => segment == first ++ second

/-- The segments of a path, last first, after those already there; `.` and `..` are followed. -/
def followSegments : List (List Char) → List (List Char) → List (List Char)
  | done, [] => done
  | done, [last] =>
    if isDoubleDot last then [] :: done.tail
    else if isDot last then [] :: done
    else last :: done
  | done, segment :: next :: rest =>
    if isDoubleDot segment then followSegments done.tail (next :: rest)
    else if isDot segment then followSegments done (next :: rest)
    else followSegments (segment :: done) (next :: rest)

/-- The segments of the path of an address over HTTP. -/
def pathSegments (cs : List Char) : List String :=
  let slashed := cs.map fun c => if c == '\\' then '/' else c
  let path := match slashed with
    | '/' :: rest => rest
    | rest => rest
  ((followSegments [] ((Text.pieces '/' path).map (encoded pathSet))).reverse).map String.ofList

/-- Path, query and fragment of what follows the host. -/
def cutTail (cs : List Char) : List Char × Option (List Char) × Option (List Char) :=
  let front := cs.takeWhile (· != '#')
  let fragment := match cs.dropWhile (· != '#') with
    | _ :: rest => some rest
    | [] => none
  let path := front.takeWhile (· != '?')
  let query := match front.dropWhile (· != '?') with
    | _ :: rest => some rest
    | [] => none
  (path, query, fragment)

/-- The port that is usual for a scheme. -/
def usualPort? (scheme : String) : Option Nat :=
  if scheme = "http" || scheme = "ws" then some 80
  else if scheme = "https" || scheme = "wss" then some 443
  else if scheme = "ftp" then some 21
  else none

/-! ## Part 3 — kinds of addresses -/

/-- An address whose host is read: what follows the scheme. -/
def readSpecial (scheme : String) (cs : List Char) : Except EndpointFault Endpoint := do
  let (user, rest) ← cutUserinfo true (cs.dropWhile fun c => c == '/' || c == '\\')
  let (hostText, rest) := cutHost true false rest
  if hostText.isEmpty then throw .emptyHost
  let host ← readHost hostText
  let (port, rest) ← cutPort rest
  let (path, query, fragment) := cutTail rest
  pure {
    scheme
    userinfo := String.ofList (renderUserinfo (user.getD []))
    host := String.ofList host
    port := if port = usualPort? scheme then none else port
    segments := pathSegments path
    query := query.map fun cs => String.ofList (encoded querySet cs)
    fragment := fragment.map fun cs => String.ofList (encoded fragmentSet cs) }

/-- What can be wrong with an address whose host is not read any further. -/
def checkPlain (cs : List Char) : Except EndpointFault Unit :=
  match cs with
  | '/' :: '/' :: rest => do
    let (user, rest) ← cutUserinfo false rest
    let (hostText, rest) := cutHost false false rest
    checkOpaqueHost hostText
    if hostText.isEmpty && (user.isSome || rest.head? == some ':') then throw .emptyHost
    let _ ← cutPort rest
    pure ()
  | _ => pure ()

/-- Whether a text is a drive letter. -/
def isDriveLetter (cs : List Char) : Bool :=
  match cs with
  | [letter, mark] => letter.isAlpha && (mark == ':' || mark == '|')
  | _ => false

/-- What can be wrong with the address of a file. -/
def checkFile (cs : List Char) : Except EndpointFault Unit :=
  let isSlash (c : Char) : Bool := c == '/' || c == '\\'
  match cs with
  | a :: b :: rest =>
    let host := rest.takeWhile fun c => !endsAuthority true c
    if isSlash a && isSlash b && !host.isEmpty && !isDriveLetter host then do
      let _ ← readHost host
      pure ()
    else pure ()
  | _ => pure ()

/-! ## Part 4 — addresses -/

/-- The text of an address without controls and blanks around it and line ends and tabs inside. -/
def cleaned (text : String) : List Char :=
  let isEdge (c : Char) : Bool := decide (c.toNat ≤ 0x20)
  let inner := ((text.toList.dropWhile isEdge).reverse.dropWhile isEdge).reverse
  inner.filter fun c => c != '\t' && c != '\n' && c != '\r'

/-- The scheme of an address in small letters, and what follows the colon. -/
def cutScheme (cs : List Char) : Option (String × List Char) :=
  let name := cs.takeWhile fun c => c.isAlphanum || c == '+' || c == '-' || c == '.'
  match cs.drop name.length with
  | ':' :: rest =>
    if (name.head?.map Char.isAlpha).getD false then
      some (String.ofList (name.map Char.toLower), rest)
    else none
  | _ => none

/-- **An address from its text.** -/
def parse (text : String) : Except EndpointFault Endpoint :=
  match cutScheme (cleaned text) with
  | none => throw .relative
  | some (scheme, rest) =>
    if scheme = "http" || scheme = "https" then readSpecial scheme rest
    else do
      if (usualPort? scheme).isSome then
        let _ ← readSpecial scheme rest
      else if scheme = "file" then checkFile rest
      else checkPlain rest
      throw (.otherScheme scheme)

end Endpoint

end ShaderForge

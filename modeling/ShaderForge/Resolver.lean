/-
**Expanding paths that a user wrote.**

A written path may refer to variables (`$NAME`, or braces around the name) and may begin with `~`
for the home directory. Both are replaced once, from left to right, and what was put in is not read
again for variables.

* `expandVariables`: the text with every variable replaced;
* `expandHome`: a leading `~` replaced;
* `Resolver.expand`: first the variables, then the home directory;
* `Resolver.absolute`: the expanded path, below the working directory if it is relative.
-/

import ShaderForge.Environment

namespace ShaderForge

/-! ## Part 1 — what can be wrong with a written path -/

/-- Why a written path cannot be expanded. -/
inductive PathFault
  | unclosedBrace
  | emptyName
  | unsetVariable (name : String)
  | noHome
  | otherHome (text : String)
  | emptyPath
deriving DecidableEq

/-- The text of a fault. -/
def PathFault.message : PathFault → String
  | unclosedBrace => "missing closing '\x7d' in environment variable reference"
  | emptyName => "environment variable name must not be empty"
  | unsetVariable name => "environment variable '" ++ name ++ "' is not set"
  | noHome => "unable to determine home directory for '~' expansion"
  | otherHome text => "user-specific home expansion ('" ++ text ++ "') is not supported"
  | emptyPath => "path must not be empty"

/-! ## Part 2 — variables -/

/-- A character of a variable's name where no braces mark its end. -/
def isNameChar (c : Char) : Bool := c == '_' || c.isAlphanum

/-- A piece of a written path. -/
inductive WrittenPiece
  | plain (c : Char)
  | reference (name : List Char)
deriving DecidableEq

/-- The first piece of a text and the rest; an opening brace needs a closing one. -/
def firstPiece : Char → List Char → Except PathFault (WrittenPiece × List Char)
  | '$', '{' :: rest =>
    match rest.dropWhile (· != '}') with
    | [] => throw .unclosedBrace
    | _ :: after => pure (.reference (rest.takeWhile (· != '}')), after)
  | '$', c :: rest =>
    if isNameChar c then
      pure (.reference ((c :: rest).takeWhile isNameChar), (c :: rest).dropWhile isNameChar)
    else pure (.plain '$', c :: rest)
  | c, rest => pure (.plain c, rest)

/-- A suffix that was dropped to is no longer than the list. -/
theorem length_dropWhile_le (keep : Char → Bool) (cs : List Char) :
    (cs.dropWhile keep).length ≤ cs.length := by
  induction cs with
  | nil => exact Nat.le_refl _
  | cons c cs shorter =>
    rw [List.dropWhile]
    split
    · exact Nat.le_succ_of_le shorter
    · exact Nat.le_refl _

/-- A piece takes at least one character. -/
theorem firstPiece_shorter {c : Char} {cs rest : List Char} {piece : WrittenPiece}
    (read : firstPiece c cs = .ok (piece, rest)) : rest.length ≤ cs.length := by
  unfold firstPiece at read
  split at read
  · next tail =>
    split at read
    · exact absurd read (by simp [throw, throwThe, MonadExceptOf.throw])
    · next closing after found =>
      have same : after = rest := (Prod.mk.inj (Except.ok.inj read)).2
      have bound := length_dropWhile_le (· != '}') tail
      rw [found, same] at bound
      simp only [List.length_cons] at bound ⊢
      omega
  · next d tail _ =>
    split at read
    · have same : (d :: tail).dropWhile isNameChar = rest := (Prod.mk.inj (Except.ok.inj read)).2
      rw [← same]
      exact length_dropWhile_le _ _
    · have same : d :: tail = rest := (Prod.mk.inj (Except.ok.inj read)).2
      exact Nat.le_of_eq (congrArg List.length same.symm)
  · have same : cs = rest := (Prod.mk.inj (Except.ok.inj read)).2
    exact Nat.le_of_eq (congrArg List.length same.symm)

/-- What a piece stands for. -/
def pieceValue (environment : Environment) : WrittenPiece → Except PathFault (List Char)
  | .plain c => pure [c]
  | .reference [] => throw .emptyName
  | .reference name =>
    match environment.value? (String.ofList name) with
    | none => throw (.unsetVariable (String.ofList name))
    | some value => pure value.toList

/-- **A text with its variables replaced**, piece by piece; the first fault ends it. -/
def expandChars (environment : Environment) : List Char → Except PathFault (List Char)
  | [] => pure []
  | c :: cs =>
    match _read : firstPiece c cs with
    | .error fault => throw fault
    | .ok (piece, rest) =>
      match pieceValue environment piece with
      | .error fault => throw fault
      | .ok value =>
        match expandChars environment rest with
        | .error fault => throw fault
        | .ok more => pure (value ++ more)
termination_by cs => cs.length
decreasing_by
  have shorter := firstPiece_shorter _read
  simp only [List.length_cons]
  omega

/-- A text with its variables replaced. -/
def expandVariables (environment : Environment) (text : String) : Except PathFault String :=
  String.ofList <$> expandChars environment text.toList

/-! ## Part 3 — the home directory -/

/-- A text whose leading `~` is replaced by the home directory. -/
def expandHome (environment : Environment) (text : String) : Except PathFault Path :=
  match text.toList with
  | '~' :: rest =>
    match environment.home? with
    | none => throw .noHome
    | some home =>
      match rest with
      | [] => pure home
      | '/' :: inside => pure (home.join ⟨String.ofList inside⟩)
      | _ => throw (.otherHome text)
  | _ => pure ⟨text⟩

/-! ## Part 4 — the resolver -/

/-- Where relative paths begin, and the environment that they are read in. -/
structure Resolver where
  cwd : Path
  environment : Environment

namespace Resolver

/-- **A written path with its variables and its home directory replaced.** -/
def expand (resolver : Resolver) (text : String) : Except PathFault Path := do
  let replaced ← expandVariables resolver.environment text
  expandHome resolver.environment replaced

/-- **A written path as an absolute one**: what is relative lies below the working directory. -/
def absolute (resolver : Resolver) (text : String) : Except PathFault Path := do
  let path ← resolver.expand text
  if path.isEmpty then throw .emptyPath
  else if path.isAbsolute then pure path
  else pure (resolver.cwd.join path)

end Resolver

end ShaderForge

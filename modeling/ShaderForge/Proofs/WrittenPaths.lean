/-
**What a written path expands to.**

A written path is cut into *parts* in one pass from left to right (`Parted`): characters that stand
for themselves, references to variables in braces or without, and a brace that is never closed with
all that follows it. A text is cut in one way (`exists_parted`, `Parted.unique`), and its parts
together are the text again. What is put in for a reference is no part of the text, and is not cut.

`expandVariables_exact`: a text expands exactly if every part of it is sound, and then to what its
parts stand for, one after the other; otherwise the fault of the first part that has one is told.
-/

import ShaderForge.Resolver
import Mathlib.Data.List.TakeWhile
import Mathlib.Tactic.Tauto

namespace ShaderForge

/-! ## Part 1 — parts -/

/-- **A part of a written path**: a character that stands for itself, a reference with braces around
its name, one without, or what follows a brace that is never closed. -/
inductive WrittenPart
  | plain (c : Char)
  | braced (name : List Char)
  | bare (name : List Char)
  | unclosed (rest : List Char)

/-- An ASCII letter, an ASCII digit, or an underscore. -/
def NameChar (c : Char) : Prop :=
  'a' ≤ c ∧ c ≤ 'z' ∨ 'A' ≤ c ∧ c ≤ 'Z' ∨ '0' ≤ c ∧ c ≤ '9' ∨ c = '_'

theorem isNameChar_iff {c : Char} : isNameChar c = true ↔ NameChar c := by
  have upper : c.isUpper = true ↔ 'A' ≤ c ∧ c ≤ 'Z' := decide_eq_true_iff
  have lower : c.isLower = true ↔ 'a' ≤ c ∧ c ≤ 'z' :=
    (Bool.and_eq_true _ _).to_iff.trans (and_congr decide_eq_true_iff decide_eq_true_iff)
  have digit : c.isDigit = true ↔ '0' ≤ c ∧ c ≤ '9' :=
    (Bool.and_eq_true _ _).to_iff.trans (and_congr decide_eq_true_iff decide_eq_true_iff)
  show (c == '_' || (c.isUpper || c.isLower || c.isDigit)) = true ↔ NameChar c
  rw [Bool.or_eq_true, Bool.or_eq_true, Bool.or_eq_true, beq_iff_eq, upper, lower, digit, NameChar]
  constructor
  · rintro (mark | ((capital | small) | digit))
    · exact .inr (.inr (.inr mark))
    · exact .inr (.inl capital)
    · exact .inl small
    · exact .inr (.inr (.inl digit))
  · rintro (small | capital | digit | mark)
    · exact .inr (.inl (.inr small))
    · exact .inr (.inl (.inl capital))
    · exact .inr (.inr digit)
    · exact .inl mark

namespace WrittenPart

/-- How a part is written. -/
def written : WrittenPart → List Char
  | plain c => [c]
  | braced name => '$' :: '{' :: name ++ ['}']
  | bare name => '$' :: name
  | unclosed rest => '$' :: '{' :: rest

/-- **A part that stands for something**: a reference does if it has a name and the variable is set.
-/
def Sound (environment : Environment) : WrittenPart → Prop
  | plain _ => True
  | braced name => name ≠ [] ∧ (environment.value? (String.ofList name)).isSome
  | bare name => (environment.value? (String.ofList name)).isSome
  | unclosed _ => False

/-- What a part stands for; nothing if it is not sound. -/
def standsFor (environment : Environment) : WrittenPart → List Char
  | plain c => [c]
  | braced name | bare name => ((environment.value? (String.ofList name)).getD "").toList
  | unclosed _ => []

/-- What is wrong with a part. -/
def fault? (environment : Environment) : WrittenPart → Option PathFault
  | plain _ => none
  | braced [] => some .emptyName
  | braced name | bare name =>
    if (environment.value? (String.ofList name)).isSome then none
    else some (.unsetVariable (String.ofList name))
  | unclosed _ => some .unclosedBrace

end WrittenPart

/-- **The first part of a text**, and what follows it. A dollar sign stands for itself if it is
followed by neither a brace nor a character of a name. -/
inductive BeginsWith : List Char → WrittenPart → List Char → Prop
  | plain {c : Char} {rest : List Char} (other : c ≠ '$') : BeginsWith (c :: rest) (.plain c) rest
  | dollar {rest : List Char} (alone : ∀ c ∈ rest.head?, c ≠ '{' ∧ ¬ NameChar c) :
    BeginsWith ('$' :: rest) (.plain '$') rest
  | braced {name rest : List Char} (closes : '}' ∉ name) :
    BeginsWith ('$' :: '{' :: name ++ '}' :: rest) (.braced name) rest
  | bare {name rest : List Char} (proper : name ≠ []) (named : ∀ c ∈ name, NameChar c)
    (ends : ∀ c ∈ rest.head?, ¬ NameChar c) : BeginsWith ('$' :: name ++ rest) (.bare name) rest
  | unclosed {rest : List Char} (never : '}' ∉ rest) :
    BeginsWith ('$' :: '{' :: rest) (.unclosed rest) []

/-- **The parts of a text**, cut off one after the other from its front. -/
inductive Parted : List Char → List WrittenPart → Prop
  | done : Parted [] []
  | next {text rest : List Char} {part : WrittenPart} {parts : List WrittenPart}
    (begins : BeginsWith text part rest) (later : Parted rest parts) : Parted text (part :: parts)

variable {environment : Environment} {text rest name : List Char} {part : WrittenPart}
  {parts : List WrittenPart} {c : Char}

/-! ## Part 2 — a text is cut in one way -/

/-- Nothing is lost by cutting a part off. -/
theorem BeginsWith.eq_append (begins : BeginsWith text part rest) :
    text = part.written ++ rest := by
  cases begins with
  | unclosed never => exact (List.append_nil _).symm
  | braced closes => simp [WrittenPart.written]
  | _ => rfl

/-- **Parts together are the text.** -/
theorem Parted.flatMap_written (parted : Parted text parts) :
    parts.flatMap WrittenPart.written = text := by
  induction parted with
  | done => rfl
  | next begins later ih => rw [List.flatMap_cons, ih, begins.eq_append]

/-- A name is a longest one if no character of a name follows it. -/
theorem name_longest (named : ∀ c ∈ name, NameChar c) (ends : ∀ c ∈ rest.head?, ¬ NameChar c) :
    (name ++ rest).takeWhile isNameChar = name ∧ (name ++ rest).dropWhile isNameChar = rest := by
  have all : ∀ c ∈ name, isNameChar c = true := fun c among => isNameChar_iff.mpr (named c among)
  rw [List.takeWhile_append_of_pos all, List.dropWhile_append_of_pos all]
  cases rest with
  | nil => exact ⟨List.append_nil name, rfl⟩
  | cons c rest =>
    have stops : ¬ isNameChar c = true := fun goes_on => ends c rfl (isNameChar_iff.mp goes_on)
    rw [List.takeWhile_cons_of_neg stops, List.dropWhile_cons_of_neg stops, List.append_nil]
    exact ⟨rfl, rfl⟩

/-- A name in braces is what stands before the first closing one. -/
theorem name_closed (closes : '}' ∉ name) (rest : List Char) :
    (name ++ '}' :: rest).takeWhile (· != '}') = name ∧
      (name ++ '}' :: rest).dropWhile (· != '}') = '}' :: rest := by
  have all : ∀ c ∈ name, (c != '}') = true := fun c among => by
    rw [bne_iff_ne]
    rintro rfl
    exact closes among
  rw [List.takeWhile_append_of_pos all, List.dropWhile_append_of_pos all]
  exact ⟨List.append_nil name, rfl⟩

/-- What is read of a part: a piece, with what follows it, or the fault of a brace that is never
closed. -/
def WrittenPart.piece (rest : List Char) : WrittenPart → Except PathFault (WrittenPiece × List Char)
  | plain c => .ok (.plain c, rest)
  | braced name | bare name => .ok (.reference name, rest)
  | unclosed _ => .error .unclosedBrace

/-- **The first part of a text is what is read first.** -/
theorem BeginsWith.firstPiece_eq (begins : BeginsWith text part rest) :
    ∃ c cs, text = c :: cs ∧ firstPiece c cs = part.piece rest := by
  cases begins with
  | @plain c rest other =>
    refine ⟨c, rest, rfl, ?_⟩
    unfold firstPiece
    split
    · exact absurd rfl other
    · exact absurd rfl other
    · rfl
  | dollar alone =>
    refine ⟨'$', rest, rfl, ?_⟩
    unfold firstPiece
    split
    · exact absurd rfl (alone _ rfl).1
    · rw [if_neg fun named => (alone _ rfl).2 (isNameChar_iff.mp named)]
      rfl
    · rfl
  | @braced name rest closes =>
    obtain ⟨taken, left⟩ := name_closed closes rest
    refine ⟨'$', '{' :: (name ++ '}' :: rest), rfl, ?_⟩
    rw [firstPiece, left, taken]
    rfl
  | @bare name rest proper named ends =>
    obtain ⟨c, name, rfl⟩ := List.exists_cons_of_ne_nil proper
    obtain ⟨taken, left⟩ := name_longest named ends
    have first : isNameChar c = true := isNameChar_iff.mpr (named c List.mem_cons_self)
    have closed : c ≠ '{' := by
      rintro rfl
      cases first
    refine ⟨'$', c :: (name ++ rest), rfl, ?_⟩
    rw [List.cons_append] at taken left
    unfold firstPiece
    split
    · next same => exact absurd (List.cons.inj same).1 closed
    · next same =>
      cases same
      rw [if_pos first, taken, left]
      rfl
    · next other => exact absurd rfl (other _ _ rfl)
  | @unclosed rest never =>
    refine ⟨'$', '{' :: rest, rfl, ?_⟩
    have none : rest.dropWhile (· != '}') = [] := by
      rw [List.dropWhile_eq_nil_iff]
      intro c among
      rw [bne_iff_ne]
      rintro rfl
      exact never among
    rw [firstPiece, none]
    rfl

/-- Nothing follows a brace that is never closed. -/
theorem BeginsWith.rest_unclosed {left : List Char}
    (begins : BeginsWith text (.unclosed left) rest) : rest = [] := by
  cases begins
  rfl

/-- A reference without braces has a name. -/
theorem BeginsWith.name_ne_nil (begins : BeginsWith text (.bare name) rest) : name ≠ [] := by
  cases begins with
  | bare proper _ _ => exact proper

/-- **A text begins with one part only.** -/
theorem BeginsWith.unique {part' : WrittenPart} {rest' : List Char}
    (begins : BeginsWith text part rest) (again : BeginsWith text part' rest') :
    part = part' ∧ rest = rest' := by
  obtain ⟨c, cs, rfl, read⟩ := begins.firstPiece_eq
  obtain ⟨c', cs', same, reread⟩ := again.firstPiece_eq
  cases same
  have pieces := read.symm.trans reread
  have texts := begins.eq_append.symm.trans again.eq_append
  cases part with
  | plain c =>
    cases part' <;> cases pieces
    exact ⟨rfl, rfl⟩
  | braced name =>
    cases part' with
    | braced name' => cases pieces; exact ⟨rfl, rfl⟩
    | bare name' =>
      -- The same name with and without braces is not followed by the same text.
      cases pieces
      have lengths := congrArg List.length texts
      simp [WrittenPart.written] at lengths
      omega
    | _ => cases pieces
  | bare name =>
    cases part' with
    | bare name' => cases pieces; exact ⟨rfl, rfl⟩
    | braced name' =>
      cases pieces
      have lengths := congrArg List.length texts
      simp [WrittenPart.written] at lengths
      omega
    | _ => cases pieces
  | unclosed open_ =>
    cases part' with
    | unclosed open' =>
      rw [begins.rest_unclosed, again.rest_unclosed, List.append_nil, List.append_nil] at texts
      rw [begins.rest_unclosed, again.rest_unclosed]
      cases texts
      exact ⟨rfl, rfl⟩
    | _ => cases pieces

/-- Every text that is not empty begins with a part. -/
theorem exists_beginsWith (c : Char) (cs : List Char) :
    ∃ part rest, BeginsWith (c :: cs) part rest := by
  by_cases dollar : c = '$'
  · subst dollar
    cases cs with
    | nil => exact ⟨_, _, .dollar fun c nothing => nomatch nothing⟩
    | cons d cs =>
      by_cases brace : d = '{'
      · subst brace
        by_cases closed : '}' ∈ cs
        · obtain ⟨name, rest, rfl, closes⟩ := List.eq_append_cons_of_mem closed
          exact ⟨_, _, .braced closes⟩
        · exact ⟨_, _, .unclosed closed⟩
      · by_cases named : NameChar d
        · have cut := List.takeWhile_append_dropWhile (p := isNameChar) (l := d :: cs)
          have proper : (d :: cs).takeWhile isNameChar ≠ [] := by
            rw [List.takeWhile_cons_of_pos (isNameChar_iff.mpr named)]
            exact List.cons_ne_nil _ _
          have ends : ∀ c ∈ ((d :: cs).dropWhile isNameChar).head?, ¬ NameChar c := by
            intro c first more
            have stops := List.head?_dropWhile_not isNameChar (d :: cs)
            rw [Option.mem_def.mp first] at stops
            simp [isNameChar_iff.mpr more] at stops
          have begins := BeginsWith.bare proper
            (fun c among => isNameChar_iff.mp (List.mem_takeWhile_imp among)) ends
          rw [List.cons_append, cut] at begins
          exact ⟨_, _, begins⟩
        · refine ⟨_, _, .dollar fun c first => ?_⟩
          cases first
          exact ⟨brace, named⟩
  · exact ⟨_, _, .plain dollar⟩

theorem BeginsWith.shorter (begins : BeginsWith text part rest) : rest.length < text.length := by
  cases begins with
  | plain _ | dollar _ => exact Nat.lt_succ_self _
  | braced _ | bare _ _ _ =>
    simp only [List.length_cons, List.length_append]
    omega
  | unclosed _ => exact Nat.zero_lt_succ _

/-- **Every text is cut into parts.** -/
theorem exists_parted (text : List Char) : ∃ parts, Parted text parts := by
  induction size : text.length using Nat.strongRecOn generalizing text with
  | ind size ih =>
    cases text with
    | nil => exact ⟨[], .done⟩
    | cons c cs =>
      obtain ⟨part, rest, begins⟩ := exists_beginsWith c cs
      obtain ⟨parts, later⟩ := ih rest.length (size ▸ begins.shorter) rest rfl
      exact ⟨part :: parts, .next begins later⟩

/-- **Every text is cut into parts in one way only.** -/
theorem Parted.unique {others : List WrittenPart} (parted : Parted text parts)
    (again : Parted text others) : others = parts := by
  induction parted generalizing others with
  | done =>
    cases again with
    | done => rfl
    | next begins later => exact absurd begins.shorter (Nat.not_lt_zero _)
  | next begins later ih =>
    cases again with
    | done => exact absurd begins.shorter (Nat.not_lt_zero _)
    | next begins' later' =>
      obtain ⟨rfl, rfl⟩ := begins.unique begins'
      rw [ih later']

/-! ## Part 3 — what parts expand to -/

namespace WrittenPart

/-- A part is sound exactly if nothing is wrong with it. -/
theorem sound_iff (environment : Environment) (part : WrittenPart) :
    part.Sound environment ↔ part.fault? environment = none := by
  cases part with
  | plain c => exact iff_of_true trivial rfl
  | braced name =>
    cases name with
    | nil => exact iff_of_false (fun sound => sound.1 rfl) fun none => nomatch none
    | cons c name => simp [Sound, fault?, Option.isSome_iff_ne_none]
  | bare name =>
    cases name <;> simp [Sound, fault?, Option.isSome_iff_ne_none]
  | unclosed rest => exact iff_of_false id fun none => nomatch none

end WrittenPart

/-- No part has a fault exactly if all of them are sound. -/
theorem findSome?_fault?_eq_none (environment : Environment) (parts : List WrittenPart) :
    parts.findSome? (WrittenPart.fault? environment) = none ↔
      ∀ part ∈ parts, part.Sound environment := by
  rw [List.findSome?_eq_none_iff]
  exact forall₂_congr fun part _ => (part.sound_iff environment).symm

/-- What a text expands to that begins with a piece. -/
theorem expandChars_cons (environment : Environment) {cs : List Char} {piece : WrittenPiece}
    (read : firstPiece c cs = .ok (piece, rest)) :
    expandChars environment (c :: cs) = pieceValue environment piece >>= fun value =>
      (value ++ ·) <$> expandChars environment rest := by
  rw [expandChars]
  split
  · next fault failed =>
    rw [read] at failed
    cases failed
  · next found left again =>
    rw [read] at again
    cases again
    cases pieceValue environment piece with
    | error fault => rfl
    | ok value =>
      show _ = (value ++ ·) <$> expandChars environment rest
      cases expandChars environment rest <;> rfl

/-- A reference with a name stands for the value of the variable. -/
theorem pieceValue_reference (environment : Environment) (proper : name ≠ []) :
    pieceValue environment (.reference name) =
      if (environment.value? (String.ofList name)).isSome then
        .ok ((environment.value? (String.ofList name)).getD "").toList
      else .error (.unsetVariable (String.ofList name)) := by
  obtain ⟨c, name, rfl⟩ := List.exists_cons_of_ne_nil proper
  rw [pieceValue]
  · cases environment.value? (String.ofList (c :: name)) <;> rfl
  · exact List.cons_ne_nil c name

/-- **A part is expanded by itself**: to its fault, or to what it stands for, in front of what the
rest of the text expands to. -/
theorem BeginsWith.expandChars_eq (environment : Environment) (begins : BeginsWith text part rest) :
    expandChars environment text =
      match part.fault? environment with
      | some fault => .error fault
      | none => (part.standsFor environment ++ ·) <$> expandChars environment rest := by
  obtain ⟨c, cs, rfl, read⟩ := begins.firstPiece_eq
  cases part with
  | plain d => rw [expandChars_cons environment read]; rfl
  | braced name =>
    rw [expandChars_cons environment read]
    cases name with
    | nil => rfl
    | cons d name =>
      rw [pieceValue_reference environment (List.cons_ne_nil d name), WrittenPart.fault?,
        WrittenPart.standsFor]
      · cases environment.value? (String.ofList (d :: name)) <;> rfl
      · exact List.cons_ne_nil d name
  | bare name =>
    rw [expandChars_cons environment read, pieceValue_reference environment begins.name_ne_nil,
      WrittenPart.fault?, WrittenPart.standsFor]
    cases environment.value? (String.ofList name) <;> rfl
  | unclosed left =>
    rw [expandChars]
    split
    · next fault failed =>
      rw [read] at failed
      cases failed
      rfl
    · next found left again =>
      rw [read] at again
      cases again

/-- **A text expands to what its parts stand for**, or to the first fault among them. -/
theorem Parted.expandChars_eq (environment : Environment) (parted : Parted text parts) :
    expandChars environment text =
      match parts.findSome? (WrittenPart.fault? environment) with
      | some fault => .error fault
      | none => .ok (parts.flatMap (WrittenPart.standsFor environment)) := by
  induction parted with
  | done => rw [expandChars]; rfl
  | @next text rest part parts begins later ih =>
    rw [begins.expandChars_eq environment, ih, List.findSome?_cons, List.flatMap_cons]
    cases part.fault? environment with
    | some fault => rfl
    | none => cases parts.findSome? (WrittenPart.fault? environment) <;> rfl

/-- **What a text expands to**, given its parts. -/
structure Expands (environment : Environment) (text : String) (parts : List WrittenPart) :
    Prop where
  parted : Parted text.toList parts
  only : ∀ others, Parted text.toList others → others = parts
  whole : parts.flatMap WrittenPart.written = text.toList
  succeeds : (∃ result, expandVariables environment text = .ok result) ↔
    ∀ part ∈ parts, part.Sound environment
  result : ∀ result, expandVariables environment text = .ok result →
    result.toList = parts.flatMap (WrittenPart.standsFor environment)
  fails : ∀ fault, expandVariables environment text = .error fault ↔
    parts.findSome? (WrittenPart.fault? environment) = some fault

/-- **Every text expands part by part.** -/
theorem expandVariables_exact (environment : Environment) (text : String) :
    ∃ parts, Expands environment text parts := by
  obtain ⟨parts, parted⟩ := exists_parted text.toList
  have expanded := parted.expandChars_eq environment
  refine ⟨parts, parted, fun others => parted.unique, parted.flatMap_written, ?_, ?_, ?_⟩
  · rw [← findSome?_fault?_eq_none, expandVariables, expanded]
    cases parts.findSome? (WrittenPart.fault? environment) with
    | none => exact iff_of_true ⟨_, rfl⟩ rfl
    | some fault => exact iff_of_false (fun ⟨_, ok⟩ => nomatch ok) fun none => nomatch none
  · intro result ok
    rw [expandVariables, expanded] at ok
    cases first : parts.findSome? (WrittenPart.fault? environment) with
    | none =>
      rw [first] at ok
      cases ok
      exact String.toList_ofList
    | some fault =>
      rw [first] at ok
      cases ok
  · intro fault
    rw [expandVariables, expanded]
    cases parts.findSome? (WrittenPart.fault? environment) with
    | none => exact iff_of_false (fun failed => nomatch failed) fun some => nomatch some
    | some first =>
      exact ⟨fun failed => congrArg some (Except.error.inj failed),
        fun same => congrArg Except.error (Option.some.inj same)⟩

end ShaderForge

/-
**Paths at the home directory.**

A written path whose expansion begins with `~/` is read at the home directory: what follows the
slash is joined with it. A relative text goes on from there, component by component
(`Path.components_join`), whether it was written so or stands in a variable, and so the path is the
home directory or lies below it.

A join puts an absolute right side in the place of the left one. What follows `~/` is absolute where
a second slash was written, and where it begins with a variable whose value does; then nothing is
left of the home directory. So a path at the home directory lies below it exactly if what follows
`~/` does not begin with a slash, or lies below the home directory by itself
(`Resolver.expand_at_home`), and it may not (`Resolver.expand_leaves_home`).
-/

import Mathlib
import ShaderForge.Proofs.NamedPaths
import ShaderForge.Resolver

namespace ShaderForge

open Text (pieces)

/-! ## Part 1 — components of a path below a path -/

namespace Path

variable {left right : Path} {walked other : List Char} {leading : Bool} {parts : List (List Char)}

/-- The components of pieces do not depend on the text before them. -/
theorem components_stepsFrom :
    (stepsFrom leading walked parts).map Step.component =
      (stepsFrom leading other parts).map Step.component := by
  induction parts generalizing leading walked other with
  | nil => rfl
  | cons part parts ih =>
    rw [stepsFrom, stepsFrom]
    cases component? leading part with
    | none => exact ih
    | some component => exact congrArg (component :: ·) ih

/-- **The components of a path below a path** are those of the upper one, and then those that the
lower one has when it does not lead. -/
theorem components_join (some_left : left.isEmpty = false) (relative : right.isAbsolute = false) :
    (left.join right).components = left.components ++
      (stepsFrom false [] (pieces '/' right.text.toList)).map Step.component := by
  rw [← Bool.not_eq_true, isEmpty_iff] at some_left
  rw [← Bool.not_eq_true, isAbsolute_iff] at relative
  obtain ⟨init, last, shape⟩ := (List.eq_nil_or_concat left.text.toList).resolve_left some_left
  rw [List.concat_eq_append] at shape
  have joined : ∃ before, stepsOf (before ++ ['/']) = left.steps ∧
      (left.join right).text.toList = before ++ '/' :: right.text.toList := by
    rw [toList_join, joinChars, if_neg relative, steps, shape, List.getLast?_concat]
    by_cases slash : last = '/'
    · rw [slash]
      exact ⟨init, rfl, List.append_assoc _ _ _⟩
    · refine ⟨init ++ [last], stepsOf_slash (by simp), ?_⟩
      split
      · next none => cases none
      · next same => exact absurd (Option.some.inj same) slash
      · rfl
  obtain ⟨before, begins, whole⟩ := joined
  rw [components, steps, whole, stepsOf_append_slash, begins, List.map_append, components]
  exact congrArg (left.components ++ ·) components_stepsFrom

/-- The components of a text behind a slash. -/
theorem components_slash (text : List Char) :
    Path.components ⟨String.ofList ('/' :: text)⟩ =
      .root :: (stepsFrom false [] (pieces '/' text)).map Step.component := by
  rw [components, steps, String.toList_ofList]
  exact congrArg (Component.root :: ·) components_stepsFrom

/-- **An absolute path takes the place of the one that it is joined with.** -/
theorem join_of_isAbsolute (absolute : right.isAbsolute = true) : left.join right = right := by
  rw [join, joinChars, if_pos (isAbsolute_iff.mp absolute), String.ofList_toList]

end Path

/-! ## Part 2 — below the home directory -/

variable {resolver : Resolver} {home : Path} {text replaced : String} {inside : List Char}

namespace Resolver

/-- **A text that expands to one behind `~/`** is read at the home directory. -/
theorem expand_tilde (expanded : expandVariables resolver.environment text = .ok replaced)
    (tilde : replaced.toList = '~' :: '/' :: inside)
    (homed : resolver.environment.home? = some home) :
    resolver.expand text = .ok (home.join ⟨String.ofList inside⟩) := by
  show (expandVariables resolver.environment text >>= expandHome resolver.environment) = _
  rw [expanded]
  show expandHome resolver.environment replaced = _
  rw [expandHome, tilde, homed]
  rfl

/-- **A path at the home directory.** Whatever follows `~/`, the text expands. The path is the home
directory or lies below it exactly if what follows does not begin with a slash, or lies there by
itself; and if it does not begin with one, the path goes on from the home directory with the
components of what follows. -/
theorem expand_at_home (expanded : expandVariables resolver.environment text = .ok replaced)
    (tilde : replaced.toList = '~' :: '/' :: inside)
    (homed : resolver.environment.home? = some home) (absolute : home.isAbsolute = true) :
    ∃ path, resolver.expand text = .ok path ∧
      (home.components <+: path.components ↔
        (inside.head? = some '/' →
          home.components <+: Path.components ⟨String.ofList inside⟩)) ∧
      (inside.head? ≠ some '/' → path.components =
        home.components ++ (Path.components ⟨String.ofList ('/' :: inside)⟩).tail) := by
  refine ⟨_, expand_tilde expanded tilde homed, ?_⟩
  have begins : Path.isAbsolute ⟨String.ofList inside⟩ = true ↔ inside.head? = some '/' := by
    rw [Path.isAbsolute_iff, String.toList_ofList]
  by_cases slash : inside.head? = some '/'
  · rw [Path.join_of_isAbsolute (begins.mpr slash)]
    exact ⟨⟨fun below _ => below, fun below => below slash⟩, absurd slash⟩
  · have relative : Path.isAbsolute ⟨String.ofList inside⟩ = false := by
      rw [← Bool.not_eq_true, begins]
      exact slash
    have whole := Path.components_join (Path.isEmpty_of_isAbsolute absolute) relative
    rw [String.toList_ofList] at whole
    rw [whole, Path.components_slash, List.tail_cons]
    exact ⟨iff_of_true (List.prefix_append _ _) fun begun => absurd begun slash, fun _ => rfl⟩

end Resolver

/-! ## Part 3 — a shelf and a depot -/

/-- A resolver for a user whose shelf has a relative path, and whose depot has an absolute one. -/
def storingResolver : Resolver :=
  ⟨⟨"/work"⟩, ⟨[("HOME", "/home/u"), ("SHELF", "kept/./"), ("DEPOT", "/opt/depot")], none⟩⟩

theorem storing_home : storingResolver.environment.home? = some ⟨"/home/u"⟩ := by rfl

namespace Resolver

/-- What stands on the shelf lies below the home directory. -/
theorem expand_at_home_shelf :
    ∃ path, storingResolver.expand "~/$\x7bSHELF\x7d/mage" = .ok path ∧
      Path.components ⟨"/home/u"⟩ <+: path.components ∧
      path.components = [.root, .name "home", .name "u", .name "kept", .name "mage"] := by
  have expanded : expandVariables storingResolver.environment "~/$\x7bSHELF\x7d/mage" =
      .ok "~/kept/.//mage" := by cbv
  have tilde : "~/kept/.//mage".toList = '~' :: '/' :: "kept/.//mage".toList := rfl
  obtain ⟨path, reads, below, onward⟩ :=
    expand_at_home expanded tilde storing_home (by decide)
  refine ⟨path, reads, below.mpr fun slash => ?_, (onward ?_).trans ?_⟩
  · exact absurd slash (by decide)
  · decide
  · decide +kernel

/-- **The depot does not lie below the home directory**, though it is written there: the value of
its variable takes the place of the home directory. -/
theorem expand_leaves_home :
    ¬ ∀ (resolver : Resolver) (text replaced : String) (inside : List Char) (home : Path),
      expandVariables resolver.environment text = .ok replaced →
      replaced.toList = '~' :: '/' :: inside → resolver.environment.home? = some home →
      home.isAbsolute = true →
      ∃ path, resolver.expand text = .ok path ∧ home.components <+: path.components := by
  intro claim
  have expanded : expandVariables storingResolver.environment "~/$DEPOT" = .ok "~//opt/depot" := by
    cbv
  obtain ⟨path, reads, below⟩ := claim storingResolver "~/$DEPOT" "~//opt/depot" "/opt/depot".toList
    ⟨"/home/u"⟩ expanded rfl storing_home (by decide)
  rw [expand_tilde expanded rfl storing_home] at reads
  cases reads
  have apart : ¬ Path.components ⟨"/home/u"⟩ <+:
      (Path.join ⟨"/home/u"⟩ ⟨String.ofList "/opt/depot".toList⟩).components := by
    decide +kernel
  exact apart below

end Resolver

end ShaderForge

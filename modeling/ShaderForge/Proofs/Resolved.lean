/-
**What was resolved.**

An input that a path is resolved to was checked, and the checks are what later steps rely on: a
directory has a config and a shader in it (`resolve_ok`), and so there is always a config to compile
(`configFiles_ne_nil`); the owner of a shader was found above it, and names it (`owner?_ok`).

A job whose path was resolved goes on with the backend that its settings select
(`generate_resolved`).
-/

import ShaderForge.Job.Generate
import ShaderForge.Proofs.NamedPaths
import ShaderForge.Proofs.Perform

namespace ShaderForge

variable {world : World} {path root : Path} {node : Node} {input : JobInput}

/-- Two steps that may fail give something only if both do. -/
theorem except_bind_ok {ε α β : Type} {first : Except ε α} {next : α → Except ε β} {result : β}
    (given : (first >>= next) = .ok result) :
    ∃ value, first = .ok value ∧ next value = .ok result := by
  cases first with
  | error fault => cases given
  | ok value => exact ⟨value, rfl, given⟩

/-- Two steps fail if one of them does. -/
theorem except_bind_error {ε α β : Type} {first : Except ε α} {next : α → Except ε β} {error : ε}
    (failed : (first >>= next) = .error error) :
    first = .error error ∨ ∃ value, first = .ok value ∧ next value = .error error := by
  cases first with
  | error fault => exact .inl (congrArg _ (Except.error.inj failed))
  | ok value => exact .inr ⟨value, rfl, failed⟩

/-! ## Part 1 — valid roots -/

/-- A text ends in a suffix without slashes if the part that it ends in does. -/
theorem endsIgnoringCase_of_edge {suffix : String} {front : List Char} (free : '/' ∉ suffix.toList)
    (edge : Path.Edge front) {text name : String} (shape : text.toList = front ++ name.toList) :
    Text.endsIgnoringCase suffix text = Text.endsIgnoringCase suffix name := by
  rw [Bool.eq_iff_iff, Text.endsIgnoringCase, Text.endsIgnoringCase, List.isSuffixOf_iff_suffix,
    List.isSuffixOf_iff_suffix, shape, List.map_append]
  refine ⟨fun ends => ?_, fun ends => ends.trans (List.suffix_append _ _)⟩
  rcases Nat.le_total suffix.toList.length (name.toList.map Char.toLower).length with short | long
  · exact List.suffix_of_suffix_length_le ends (List.suffix_append _ _) short
  · obtain ⟨rest, whole⟩ := List.suffix_of_suffix_length_le (List.suffix_append _ _) ends long
    rw [← whole] at ends free ⊢
    -- The rest would end in the slash before the part.
    obtain rfl : rest = [] := by
      obtain ⟨before, same⟩ := ends
      rw [← List.append_assoc] at same
      have inside := List.append_cancel_right same
      rcases edge with rfl | ⟨start, rfl⟩
      · exact (List.append_eq_nil_iff.mp inside).2
      · rcases List.eq_nil_or_concat rest with rfl | ⟨init, last, rfl⟩
        · rfl
        · have slash := congrArg List.getLast? inside
          rw [List.concat_eq_append, ← List.append_assoc, List.getLast?_concat, List.map_append,
            List.map_singleton, List.getLast?_concat] at slash
          have last_slash : last = '/' := (Option.some.inj slash).trans (by decide)
          exact absurd (by simp [last_slash]) free
    exact List.suffix_refl _

/-- **The name of what is found ends as its path does.** -/
theorem hasName_of_found {suffix : String} (free : '/' ∉ suffix.toList)
    (proper : suffix.toList ≠ []) (there : (path, node) ∈ found world root) :
    hasName (Text.endsIgnoringCase suffix) path = Text.endsIgnoringCase suffix path.text := by
  obtain ⟨-, start, -, location, -, leads⟩ := mem_found_iff.mp there
  obtain ⟨names, below, -, left⟩ := foundPath?_eq_some.mp leads
  obtain ⟨init, name, rfl⟩ := (List.eq_nil_or_concat names).resolve_left (namesBelow?_ne_nil below)
  rw [List.concat_eq_append] at left
  rcases Path.stripped?_ends left with rfl | ⟨front, edge, shape⟩
  · show false = _
    rw [eq_comm, ← Bool.not_eq_true, Text.endsIgnoringCase, List.isSuffixOf_iff_suffix]
    exact fun ends => proper (List.suffix_nil.mp ends)
  · obtain ⟨some_text, here, up, plain, -⟩ := isEntryName_iff.mp name.usable
    have named := Path.fileName?_of_edge edge plain some_text here up
    rw [← shape, String.ofList_toList, String.ofList_toList] at named
    rw [hasName, named, endsIgnoringCase_of_edge free edge shape]

/-- **Both are seen** if there are both, however they are mixed. -/
theorem bringsBoth_iff {paths : List Path} {config shader : Bool}
    (unsettled : (config && shader) = false) : bringsBoth config shader paths = true ↔
      (config = true ∨ ∃ path ∈ paths, isConfigName path.text = true) ∧
        (shader = true ∨ ∃ path ∈ paths, isShaderName path.text = true) := by
  induction paths generalizing config shader with
  | nil =>
    refine iff_of_false Bool.false_ne_true fun both => ?_
    simp only [List.not_mem_nil, false_and, exists_false, or_false] at both
    rw [both.1, both.2] at unsettled
    cases unsettled
  | cons path paths ih =>
    rw [bringsBoth]
    split
    · next settled =>
      obtain ⟨first, second⟩ := (Bool.and_eq_true _ _).mp settled
      refine iff_of_true rfl ⟨?_, ?_⟩
      · exact ((Bool.or_eq_true _ _).mp first).imp_right fun named => ⟨path, by simp, named⟩
      · exact ((Bool.or_eq_true _ _).mp second).imp_right fun named => ⟨path, by simp, named⟩
    · next still =>
      rw [ih (Bool.eq_false_iff.mpr still), Bool.or_eq_true, Bool.or_eq_true]
      simp only [List.mem_cons, exists_eq_or_imp, or_assoc]

theorem mem_scanned : path ∈ scanned world root ↔
    ∃ suffix ∈ configSuffix :: shaderSuffixes, ∃ node, (path, node) ∈ found world root ∧
      node.isFile = true ∧ hasName (Text.endsIgnoringCase suffix) path = true := by
  rw [scanned, List.mem_flatMap]
  refine exists_congr fun suffix => and_congr_right fun _ => ?_
  rw [List.mem_map]
  constructor
  · rintro ⟨⟨_, node⟩, inside, rfl⟩
    obtain ⟨there, fits⟩ := List.mem_filter.mp inside
    exact ⟨node, there, (Bool.and_eq_true _ _).mp fits⟩
  · rintro ⟨node, there, fits⟩
    exact ⟨(path, node), List.mem_filter.mpr ⟨there, (Bool.and_eq_true _ _).mpr fits⟩, rfl⟩

/-- Scanning for suffixes brings a path that ends in one of them if a file with such a name is
listed. -/
theorem exists_scanned {suffixes : List String} {wanted : String → Bool}
    (among : suffixes ⊆ configSuffix :: shaderSuffixes)
    (reads : ∀ name, wanted name = suffixes.any fun suffix => Text.endsIgnoringCase suffix name) :
    (∃ path ∈ scanned world root, wanted path.text = true) ↔ filesNamed wanted world root ≠ [] := by
  have plain : ∀ suffix ∈ configSuffix :: shaderSuffixes,
      '/' ∉ suffix.toList ∧ suffix.toList ≠ [] := by decide
  have own : ∀ path : Path, hasName wanted path = true ↔
      ∃ suffix ∈ suffixes, hasName (Text.endsIgnoringCase suffix) path = true := by
    intro path
    unfold hasName
    cases path.fileName? with
    | none => exact iff_of_false Bool.false_ne_true fun ⟨_, _, fits⟩ => Bool.false_ne_true fits
    | some name =>
      show wanted name = true ↔ _
      rw [reads, List.any_eq_true]
  rw [filesNamed_ne_nil]
  constructor
  · rintro ⟨path, inside, named⟩
    obtain ⟨-, -, node, there, file, -⟩ := mem_scanned.mp inside
    rw [reads, List.any_eq_true] at named
    obtain ⟨suffix, listed, ends⟩ := named
    obtain ⟨free, proper⟩ := plain suffix (among listed)
    rw [← hasName_of_found free proper there] at ends
    exact ⟨path, node, there, file, (own path).mpr ⟨suffix, listed, ends⟩⟩
  · rintro ⟨path, node, there, file, named⟩
    obtain ⟨suffix, listed, ends⟩ := (own path).mp named
    obtain ⟨free, proper⟩ := plain suffix (among listed)
    refine ⟨path, mem_scanned.mpr ⟨suffix, among listed, node, there, file, ends⟩, ?_⟩
    rw [hasName_of_found free proper there] at ends
    rw [reads, List.any_eq_true]
    exact ⟨suffix, listed, ends⟩

/-- **A root is valid if it has a config and a shader**: the scans for one suffix after the other
come to what the lists say. -/
theorem validateRoot_iff :
    validateRoot world root = .ok ⟨⟩ ↔
      discoverConfigs world root ≠ [] ∧ discoverShaders world root ≠ [] := by
  have configs : (∃ path ∈ scanned world root, isConfigName path.text = true) ↔
      discoverConfigs world root ≠ [] :=
    @exists_scanned world root [configSuffix] _ (by decide) fun name => (Bool.or_false _).symm
  have shaders : (∃ path ∈ scanned world root, isShaderName path.text = true) ↔
      discoverShaders world root ≠ [] :=
    exists_scanned (List.subset_cons_self _ _) fun _ => rfl
  have both := @bringsBoth_iff (scanned world root) false false rfl
  rw [or_iff_right Bool.false_ne_true, or_iff_right Bool.false_ne_true, configs, shaders] at both
  rw [← both, validateRoot]
  cases bringsBoth false false (scanned world root) with
  | false => exact iff_of_false (fun valid => nomatch valid) Bool.false_ne_true
  | true => exact iff_of_true rfl rfl

/-! ## Part 2 — resolved inputs -/

/-- **The owner of a shader, as it was found**: a config in a directory above the shader, which can
be read, with an entry that names the shader; the companion is the other shader of that entry. -/
theorem owner?_ok {target : ShaderTarget} (owned : owner? world path = .ok (some target)) :
    ∃ name sibling, path.fileName? = some name ∧ target.root ∈ owningDirectories path ∧
      target.configPath ∈ immediateConfigs world target.root ∧
      ConfigFile.load world target.configPath = .ok target.config ∧
      entryFor? target.config name = some (target.entry, sibling) ∧ target.shader = path ∧
      target.companion = target.root.below sibling := by
  unfold owner? at owned
  split at owned
  · cases owned
  · next name named =>
    obtain ⟨directory, among, held⟩ := List.exists_of_findSome?_eq_some (Except.ok.inj owned)
    obtain ⟨configPath, listed, made⟩ := List.exists_of_findSome?_eq_some held
    obtain ⟨config, loaded, made⟩ := Option.bind_eq_some_iff.mp made
    obtain ⟨⟨entry, sibling⟩, names, made⟩ := Option.bind_eq_some_iff.mp made
    cases made
    refine ⟨name, sibling, named, among, listed, ?_, names, rfl, rfl⟩
    show ConfigFile.load world configPath = .ok config
    cases reads : ConfigFile.load world configPath with
    | error error =>
      rw [reads] at loaded
      cases loaded
    | ok file =>
      rw [reads] at loaded
      cases loaded
      rfl

theorem isEmpty_directoryOf (path : Path) : (directoryOf path).isEmpty = false := by
  unfold directoryOf
  cases kept : path.parent?.filter fun parent => !parent.isEmpty with
  | none => rfl
  | some parent =>
    have proper := (Option.filter_eq_some_iff.mp kept).2
    rwa [Bool.not_eq_true'] at proper

namespace JobInput

/-- **What a path was resolved to, with what was checked**: a directory with a config and a shader;
the config itself, in its directory, which can be read; or the shader itself, with an owner and a
companion. -/
theorem resolve_ok (resolved : resolve world path = .ok input) :
    (∃ root, input = .directory root ∧ root.isEmpty = false ∧
        validateRoot world root = .ok ⟨⟩) ∨
      (∃ name, input = .config (directoryOf path) path ∧ path.fileName? = some name ∧
        isConfigName name = true ∧ ∃ config, ConfigFile.load world path = .ok config) ∨
      ∃ target name, input = .shader target ∧ path.fileName? = some name ∧
        isConfigName name = false ∧ isShaderName name = true ∧
        owner? world path = .ok (some target) ∧ world.isFile target.companion = true := by
  unfold resolve at resolved
  split at resolved
  · cases resolved
  · next place found =>
    obtain ⟨_, valid, done⟩ := except_bind_ok resolved
    cases done
    exact .inl ⟨path, rfl, World.find_isEmpty (World.find?_eq_some.mp found), valid⟩
  · unfold resolveFile at resolved
    split at resolved
    · cases resolved
    · next name named =>
      dsimp only at resolved
      split at resolved
      · next isConfig =>
        obtain ⟨_, valid, done⟩ := except_bind_ok resolved
        obtain ⟨config, loaded, -⟩ := except_bind_ok valid
        cases done
        exact .inr (.inl ⟨name, rfl, named, isConfig, config, loaded⟩)
      · next config =>
        split at resolved
        · next shader =>
          obtain ⟨owner, owned, done⟩ := except_bind_ok resolved
          split at done
          · cases done
          · next target =>
            split at done
            · next there =>
              cases done
              exact .inr (.inr ⟨target, name, rfl, named, Bool.not_eq_true _ ▸ config, shader,
                owned, there⟩)
            · cases done
        · obtain ⟨_, valid, done⟩ := except_bind_ok resolved
          cases done
          exact .inl ⟨directoryOf path, rfl, isEmpty_directoryOf path, valid⟩

/-- **There is a config to compile.** -/
theorem configFiles_ne_nil (resolved : resolve world path = .ok input) :
    input.configFiles world ≠ [] := by
  rcases resolve_ok resolved with ⟨root, rfl, -, valid⟩ | ⟨_, rfl, _⟩ | ⟨target, _, rfl, _⟩
  · intro none
    exact (validateRoot_iff.mp valid).1 (List.map_eq_nil_iff.mp none)
  · exact List.cons_ne_nil _ _
  · exact List.cons_ne_nil _ _

end JobInput

/-- **A job with a backend and an input** is the job of that backend, without old findings and after
three looks at the token. -/
theorem generate_resolved {generator : Generator} {request : JobRequest} {hooks : Hooks}
    {backend : Backend} (quiet : hooks.Quiet)
    (selected : Backend.select generator.settings generator.resolver generator.timeout =
      .ok backend)
    (requested : Job.requestedPath generator.resolver request.path = .ok path)
    (resolved : JobInput.resolve world path = .ok input) :
    generator.generate request hooks world =
      (match backend with
        | .here compiler => Job.generateHere compiler generator.resolver input
        | .remote service =>
          Job.generateRemotely service generator.resolver request.format input).perform hooks
        ⟨world, [.looked, .looked, .looked], generator.findings.clear⟩ := by
  have found : ∀ session : Session, session.world = world →
      (Job.guarded (Job.inspect fun world => JobInput.resolve world path)).perform hooks session =
        (.ok input, session.looked.looked) := by
    intro session same
    rw [Job.perform_guarded_inspect quiet, same, resolved]
  unfold Generator.generate Job.generate
  rw [Job.perform_bind_ok Job.perform_clearFindings,
    Job.perform_bind_ok (Job.perform_checkpoint quiet), selected, requested,
    Job.perform_bind_ok (Job.perform_settle _), Job.perform_bind_ok (Job.perform_settle _),
    Job.perform_bind_ok (found _ rfl)]
  cases backend with
  | here compiler => rfl
  | remote service => rfl

end ShaderForge

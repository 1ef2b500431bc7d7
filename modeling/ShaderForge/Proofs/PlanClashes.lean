/-
**Entries of one name.**

A plan keeps the first entry of each name and leaves out the others (`firstOfEachName_push`). An
entry that is left out (`Dropped`) may have other bytes than the one that is kept: two shaders
outside of the root that share a base name are enough (`dropped_may_differ`).

Which entries can share a name is settled by the shape of the input (`plan_clashes`). Files found
below a directory never do. A config is sent beside shaders whose names are not its own, so only
what it brings in from outside of the root can share a name with anything. A shader is sent with a
config and its companion, and only the companion can share a name. Where these few pairs have the
same bytes, every entry that is left out has the bytes of the one that is kept, and only there.
-/

import Mathlib
import ShaderForge.Archive.Pack
import ShaderForge.Proofs.Discovered
import ShaderForge.Proofs.Resolved

namespace ShaderForge

variable {world : World} {path root : Path} {input : JobInput}
  {candidates plan entries : List ArchiveEntry} {entry holder : ArchiveEntry} {name : String}

/-! ## Part 1 — the first of each name -/

theorem mem_of_mem_firstOfEachName (kept : entry ∈ firstOfEachName entries) : entry ∈ entries := by
  induction entries with
  | nil => exact kept
  | cons first rest ih =>
    rcases List.mem_cons.mp kept with here | later
    · rw [here]
      exact List.mem_cons_self
    · exact List.mem_cons_of_mem _ (ih (List.mem_filter.mp later).1)

/-- A plan is made of all entries that the input gives. -/
theorem JobInput.plan_ok (planned : input.plan world = .ok plan) :
    ∃ candidates, input.candidates world = .ok candidates ∧
      firstOfEachName candidates = plan := by
  unfold JobInput.plan at planned
  cases gathered : input.candidates world with
  | error fault =>
    rw [gathered] at planned
    cases planned
  | ok candidates =>
    rw [gathered] at planned
    exact ⟨candidates, rfl, Except.ok.inj planned⟩

/-- A plan fails only when its entries cannot be gathered. -/
theorem JobInput.plan_failed {error : JobError} (failed : input.plan world = .error error) :
    input.candidates world = .error error := by
  unfold JobInput.plan at failed
  cases gathered : input.candidates world with
  | error fault =>
    rw [gathered] at failed
    exact congrArg _ (Except.error.inj failed)
  | ok candidates =>
    rw [gathered] at failed
    cases failed

/-- **Entries are pushed one after the other**: an entry whose name is taken is left out. -/
theorem firstOfEachName_push (entries : List ArchiveEntry) (entry : ArchiveEntry) :
    firstOfEachName (entries ++ [entry]) =
      if (firstOfEachName entries).any fun other => other.name = entry.name then
        firstOfEachName entries
      else firstOfEachName entries ++ [entry] := by
  induction entries with
  | nil => rfl
  | cons first rest ih =>
    rw [List.cons_append, firstOfEachName, firstOfEachName, ih, List.any_cons]
    by_cases same : first.name = entry.name
    · have gone : ∀ others : List ArchiveEntry,
          (others ++ [entry]).filter (fun other => decide (other.name ≠ first.name)) =
            others.filter fun other => decide (other.name ≠ first.name) := by
        intro others
        rw [List.filter_append, List.filter_cons_of_neg (by simp [same]), List.filter_nil,
          List.append_nil]
      rw [decide_eq_true same, Bool.true_or, if_pos rfl]
      split
      · rfl
      · rw [gone]
    · have stays : ∀ others : List ArchiveEntry,
          (others ++ [entry]).filter (fun other => decide (other.name ≠ first.name)) =
            (others.filter fun other => decide (other.name ≠ first.name)) ++ [entry] := by
        intro others
        rw [List.filter_append, List.filter_cons_of_pos (by simpa using Ne.symm same),
          List.filter_nil]
      have taken : ((firstOfEachName rest).filter fun other =>
          decide (other.name ≠ first.name)).any (fun other => decide (other.name = entry.name)) =
            (firstOfEachName rest).any fun other => decide (other.name = entry.name) := by
        rw [List.any_filter]
        refine congrArg (List.any _) (funext fun other => ?_)
        by_cases there : other.name = entry.name
        · rw [decide_eq_true there, decide_eq_true (by rw [there]; exact Ne.symm same)]
          rfl
        · rw [decide_eq_false there, Bool.and_false]
      rw [decide_eq_false same, Bool.false_or, taken]
      split
      · rfl
      · rw [stays, List.cons_append]

/-- **No two entries that are kept share a name.** -/
theorem firstOfEachName_distinct (entries : List ArchiveEntry) :
    (firstOfEachName entries).Pairwise fun left right => left.name ≠ right.name := by
  induction entries with
  | nil => exact List.Pairwise.nil
  | cons first rest ih =>
    refine List.pairwise_cons.mpr ⟨fun other kept => ?_, ih.filter _⟩
    have different := (List.mem_filter.mp kept).2
    rw [decide_eq_true_eq] at different
    exact Ne.symm different

/-- Entries with names of their own are all kept. -/
theorem firstOfEachName_of_distinct
    (distinct : entries.Pairwise fun left right => left.name ≠ right.name) :
    firstOfEachName entries = entries := by
  induction entries with
  | nil => rfl
  | cons first rest ih =>
    obtain ⟨own, others⟩ := List.pairwise_cons.mp distinct
    rw [firstOfEachName, ih others]
    refine congrArg (first :: ·) (List.filter_eq_self.mpr fun other member => ?_)
    rw [decide_eq_true_eq]
    exact Ne.symm (own other member)

theorem find?_mem_firstOfEachName
    (found : entries.find? (fun other => other.name = name) = some entry) :
    entry ∈ firstOfEachName entries ∧ entry.name = name := by
  have named : entry.name = name := by simpa using List.find?_some found
  refine ⟨?_, named⟩
  induction entries with
  | nil => cases found
  | cons first rest ih =>
    rw [firstOfEachName]
    by_cases same : first.name = name
    · rw [List.find?_cons_of_pos (by simpa using same)] at found
      cases found
      exact List.mem_cons_self
    · rw [List.find?_cons_of_neg (by simpa using same)] at found
      refine List.mem_cons_of_mem _ (List.mem_filter.mpr ⟨ih found, ?_⟩)
      rw [decide_eq_true_eq, named]
      exact Ne.symm same

/-- **An entry that is left out**, and the entry that is kept under its name. -/
def Dropped (candidates : List ArchiveEntry) (entry holder : ArchiveEntry) : Prop :=
  ∃ before after, candidates = before ++ entry :: after ∧ holder ∈ firstOfEachName before ∧
    holder.name = entry.name

/-- **What is left out agrees with what is kept exactly if all entries of one name agree.** -/
theorem dropped_agree_iff {α : Type} (content : ArchiveEntry → α) :
    (∀ entry holder, Dropped candidates entry holder → content entry = content holder) ↔
      ∀ left ∈ candidates, ∀ right ∈ candidates, left.name = right.name →
        content left = content right := by
  constructor
  · intro agree
    have first : ∀ entry ∈ candidates, ∀ holder,
        candidates.find? (fun other => other.name = entry.name) = some holder →
          content entry = content holder := by
      intro entry member holder found
      obtain ⟨before, after, shape⟩ := List.append_of_mem member
      rw [shape, List.find?_append] at found
      cases earlier : before.find? (fun other => decide (other.name = entry.name)) with
      | none =>
        rw [earlier, Option.none_or, List.find?_cons_of_pos (by simp)] at found
        cases found
        rfl
      | some kept =>
        rw [earlier, Option.some_or] at found
        cases found
        obtain ⟨among, named⟩ := find?_mem_firstOfEachName earlier
        exact agree entry holder ⟨before, after, shape, among, named⟩
    intro left there right also same
    have some_one : (candidates.find? fun other => decide (other.name = left.name)).isSome :=
      List.find?_isSome.mpr ⟨left, there, decide_eq_true rfl⟩
    obtain ⟨holder, found⟩ := Option.isSome_iff_exists.mp some_one
    exact (first left there holder found).trans (first right also holder (same ▸ found)).symm
  · rintro agree entry holder ⟨before, after, rfl, kept, named⟩
    exact agree entry (List.mem_append_right _ List.mem_cons_self) holder
      (List.mem_append_left _ (mem_of_mem_firstOfEachName kept)) named.symm

/-! ## Part 2 — names that are no one else's -/

/-- No name is that of a config and that of a shader. -/
theorem isShaderName_of_isConfigName (config : isConfigName name = true) :
    isShaderName name = false := by
  rw [← Bool.not_eq_true]
  intro shader
  obtain ⟨suffix, among, ends⟩ := List.any_eq_true.mp shader
  have left := List.isSuffixOf_iff_suffix.mp config
  have right := List.isSuffixOf_iff_suffix.mp ends
  have apart : ∀ suffix ∈ shaderSuffixes,
      ¬ configSuffix.toList <:+ suffix.toList ∧ ¬ suffix.toList <:+ configSuffix.toList := by
    decide
  rcases List.suffix_or_suffix_of_suffix left right with one | other
  · exact (apart suffix among).1 one
  · exact (apart suffix among).2 other

theorem joinPieces_concat_suffix (sep : Char) (parts : List (List Char)) (part : List Char) :
    part <:+ Text.joinPieces sep (parts ++ [part]) := by
  induction parts with
  | nil => exact List.suffix_refl part
  | cons first parts ih =>
    cases parts with
    | nil => exact (List.suffix_cons sep part).trans (List.suffix_append _ _)
    | cons next parts =>
      exact ih.trans ((List.suffix_cons sep _).trans (List.suffix_append _ _))

/-- The file name of a path is the last name in it. -/
theorem names_of_fileName? (named : path.fileName? = some name) :
    ∃ init, path.names = init ++ [name] := by
  unfold Path.fileName? at named
  split at named
  · next text before through last =>
    cases named
    obtain ⟨init, shape⟩ := List.getLast?_eq_some_iff.mp last
    refine ⟨Path.stepNames init, ?_⟩
    rw [Path.names_eq_stepNames, shape, Path.stepNames_append]
    rfl
  · cases named

/-- A shader is filed under a name that is that of a shader. -/
theorem isShaderName_filedName (named : hasName isShaderName path = true) :
    isShaderName (filedName path) = true := by
  unfold hasName at named
  split at named
  · next name last =>
    obtain ⟨init, names⟩ := names_of_fileName? last
    obtain ⟨suffix, among, ends⟩ := List.any_eq_true.mp named
    have whole : name.toList <:+ (filedName path).toList := by
      rw [filedName, toList_filed, names, List.map_append]
      exact joinPieces_concat_suffix '/' _ _
    refine List.any_eq_true.mpr ⟨suffix, among, List.isSuffixOf_iff_suffix.mpr ?_⟩
    exact (List.isSuffixOf_iff_suffix.mp ends).trans (whole.map Char.toLower)
  · cases named

/-- Two files found that are filed under one name are the same. -/
theorem eq_of_filedName {wanted : String → Bool} {left right : Path}
    (there : left ∈ filesNamed wanted world root) (also : right ∈ filesNamed wanted world root)
    (same : filedName left = filedName right) : left = right := by
  have distinct := filedNames_distinct wanted world root
  have forth : (filesNamed wanted world root).Pairwise fun left right =>
      filedName left = filedName right → left = right :=
    distinct.imp fun different alike => absurd alike different
  have back := distinct.imp fun {left right} different =>
    show flip (fun left right => filedName left = filedName right → left = right) left right from
      fun alike => absurd alike.symm different
  exact List.Pairwise.forall_of_forall_of_flip (fun path _ _ => rfl) forth back there also same

/-! ## Part 3 — what a config brings in -/

/-- **The shaders of a config that are outside of its root**, as they are written. -/
def ConfigFile.parentReferences (config : ConfigFile) : List String :=
  (config.entries.flatMap ConfigEntry.shaderPaths).filter referencesParent

/-- A shader path as it is sent with its config. -/
def shippedPath (path : String) : String :=
  if referencesParent path then (baseName? path).getD path else path

/-- A config as it is sent when paths in it had to be shortened. -/
def ConfigFile.shipped (config : ConfigFile) : ConfigFile :=
  { config with entries := config.entries.map (ConfigEntry.mapPaths shippedPath) }

/-- The entry that a shader outside of the root becomes. -/
def bring? (world : World) (root : Path) (reference : String) : Option ArchiveEntry :=
  match baseName? reference, world.read (root.below reference) with
  | some name, .ok content => some ⟨name, .bytes content⟩
  | _, _ => none

/-- What shaders bring in, and that each brings in something. -/
def Brought (world : World) (root : Path) (references : List String)
    (brought : List ArchiveEntry) : Prop :=
  brought = references.filterMap (bring? world root) ∧
    ∀ reference ∈ references, (bring? world root reference).isSome

theorem Brought.append {first second : List String} {one other : List ArchiveEntry}
    (left : Brought world root first one) (right : Brought world root second other) :
    Brought world root (first ++ second) (one ++ other) := by
  refine ⟨by rw [left.1, right.1, List.filterMap_append], fun reference member => ?_⟩
  rcases List.mem_append.mp member with here | there
  · exact left.2 reference here
  · exact right.2 reference there

theorem flattenPath_ok {written sent : String} {brought : List ArchiveEntry}
    (flat : flattenPath world root path written = .ok (sent, brought)) :
    sent = shippedPath written ∧
      Brought world root ([written].filter referencesParent) brought := by
  unfold flattenPath at flat
  unfold shippedPath
  cases leaves : referencesParent written with
  | false =>
    rw [leaves] at flat
    cases flat
    rw [List.filter_cons_of_neg (by rw [leaves]; exact Bool.false_ne_true)]
    exact ⟨rfl, rfl, fun _ member => absurd member List.not_mem_nil⟩
  | true =>
    rw [leaves] at flat
    rw [List.filter_cons_of_pos leaves, if_pos rfl]
    cases named : baseName? written with
    | none =>
      rw [named] at flat
      cases flat
    | some name =>
      rw [named] at flat
      cases found : world.read (root.below written) with
      | error fault =>
        rw [found] at flat
        cases flat
      | ok content =>
        rw [found] at flat
        cases flat
        have brings : bring? world root written = some ⟨sent, .bytes content⟩ := by
          rw [bring?, named, found]
        refine ⟨rfl, ?_, fun reference member => ?_⟩
        · rw [List.filter_nil, List.filterMap_cons, brings]
          rfl
        · rw [List.mem_singleton.mp member, brings]
          rfl

/-- **What a config becomes on its way**: its paths are shortened, and its shaders outside of the
root are brought in, in order. -/
theorem flattenEntries_ok {entries flats : List ConfigEntry} {brought : List ArchiveEntry}
    (flat : flattenEntries world root path entries = .ok (flats, brought)) :
    flats = entries.map (ConfigEntry.mapPaths shippedPath) ∧
      Brought world root ((entries.flatMap ConfigEntry.shaderPaths).filter referencesParent)
        brought := by
  induction entries generalizing flats brought with
  | nil =>
    cases flat
    exact ⟨rfl, rfl, fun _ member => absurd member List.not_mem_nil⟩
  | cons entry entries ih =>
    obtain ⟨⟨own, first⟩, head, flat⟩ := except_bind_ok flat
    obtain ⟨⟨others, later⟩, tail, flat⟩ := except_bind_ok flat
    cases flat
    obtain ⟨⟨vertex, one⟩, left, head⟩ := except_bind_ok head
    obtain ⟨⟨fragment, other⟩, right, head⟩ := except_bind_ok head
    cases head
    obtain ⟨rfl, firstBrought⟩ := flattenPath_ok left
    obtain ⟨rfl, secondBrought⟩ := flattenPath_ok right
    obtain ⟨rfl, rest⟩ := ih tail
    refine ⟨rfl, ?_⟩
    have both := (firstBrought.append secondBrought).append rest
    rwa [← List.filter_append, ← List.filter_append] at both

/-! ## Part 4 — the pairs that can share a name -/

/-- **All entries of one name have the same bytes.** -/
def Agree (world : World) (candidates : List ArchiveEntry) : Prop :=
  ∀ left ∈ candidates, ∀ right ∈ candidates, left.name = right.name →
    left.source.content world = right.source.content world

/-- **The few pairs that can share a name have the same bytes**: of a directory there are none; of a
config these are pairs of shaders outside of the root, and such a shader with the config or with a
shader below the root; of a shader, the companion with the shader or with the config. -/
def JobInput.ClashesAgree (world : World) : JobInput → Prop
  | directory _ => True
  | config root path => ∀ config, ConfigFile.load world path = .ok config →
      (∀ left ∈ config.parentReferences, ∀ right ∈ config.parentReferences,
        baseName? left = baseName? right →
          world.read (root.below left) = world.read (root.below right)) ∧
      (∀ reference ∈ config.parentReferences, baseName? reference = path.fileName? →
        world.read (root.below reference) = .ok config.shipped.render.toUTF8) ∧
      ∀ reference ∈ config.parentReferences, ∀ shader ∈ discoverShaders world root,
        baseName? reference = some (filedName shader) →
          world.read (root.below reference) = world.read (root.join shader)
  | shader target =>
      (target.companion.fileName? = target.shader.fileName? →
        world.read target.companion = world.read target.shader) ∧
      (target.companion.fileName? = some canonicalName →
        world.read target.companion = .ok target.ownConfig.render.toUTF8)

theorem agree_append {first second : List ArchiveEntry} :
    Agree world (first ++ second) ↔ Agree world first ∧ Agree world second ∧
      ∀ left ∈ first, ∀ right ∈ second, left.name = right.name →
        left.source.content world = right.source.content world := by
  constructor
  · intro agree
    refine ⟨fun left there right also => ?_, fun left there right also => ?_,
      fun left there right also => ?_⟩
    · exact agree left (List.mem_append_left _ there) right (List.mem_append_left _ also)
    · exact agree left (List.mem_append_right _ there) right (List.mem_append_right _ also)
    · exact agree left (List.mem_append_left _ there) right (List.mem_append_right _ also)
  · rintro ⟨within, beyond, across⟩ left there right also same
    rcases List.mem_append.mp there with there | there
    · rcases List.mem_append.mp also with also | also
      · exact within left there right also same
      · exact across left there right also same
    · rcases List.mem_append.mp also with also | also
      · exact (across right also left there same.symm).symm
      · exact beyond left there right also same

theorem agree_cons {first : ArchiveEntry} {rest : List ArchiveEntry} :
    Agree world (first :: rest) ↔ Agree world rest ∧ ∀ right ∈ rest, first.name = right.name →
      first.source.content world = right.source.content world := by
  have alone : Agree world [first] := fun left there right also _ => by
    rw [List.mem_singleton.mp there, List.mem_singleton.mp also]
  rw [← List.singleton_append, agree_append, and_iff_right alone, List.forall_mem_singleton]

theorem liftIo_inj {α : Type} {left right : Except IoFault α} (same : liftIo left = liftIo right) :
    left = right := by
  cases left with
  | error fault =>
    cases right with
    | error fault' =>
      cases same
      rfl
    | ok value => cases same
  | ok value =>
    cases right with
    | error fault => cases same
    | ok value' =>
      cases same
      rfl

/-- An entry brought in has the base name and the bytes of the shader. -/
theorem bring?_eq_some {reference : String} (brings : bring? world root reference = some entry) :
    baseName? reference = some entry.name ∧
      entry.source.content world = liftIo (world.read (root.below reference)) := by
  unfold bring? at brings
  split at brings
  · next name content named found =>
    cases brings
    exact ⟨named, by rw [found]; rfl⟩
  · cases brings

/-- A file below the root is an entry with its bytes. -/
theorem mem_filed {paths : List Path} (member : entry ∈ filed root paths) :
    ∃ path ∈ paths, entry.name = filedName path ∧
      entry.source.content world = liftIo (world.read (root.join path)) := by
  obtain ⟨path, among, rfl⟩ := List.mem_map.mp member
  exact ⟨path, among, rfl, rfl⟩

/-- **Files found below a root have names of their own.** -/
theorem filed_distinct (wanted : String → Bool) (world : World) (root : Path) :
    (filed root (filesNamed wanted world root)).Pairwise fun left right =>
      left.name ≠ right.name :=
  List.pairwise_map.mpr (filedNames_distinct wanted world root)

/-- They agree, since none of them share a name. -/
theorem agree_filed (wanted : String → Bool) (world : World) (root : Path) :
    Agree world (filed root (filesNamed wanted world root)) := by
  intro left there right also same
  obtain ⟨one, among, filedAs, reads⟩ := mem_filed there
  obtain ⟨other, among', filedAs', reads'⟩ := mem_filed also
  rw [filedAs, filedAs'] at same
  rw [reads, reads', eq_of_filedName among among' same]

/-- **What holds of all that is brought in** holds of the base names and the bytes of the
shaders. -/
theorem Brought.forall_iff {references : List String} {brought : List ArchiveEntry}
    (brings : Brought world root references brought)
    (holds : String → Except JobError ByteArray → Prop) :
    (∀ entry ∈ brought, holds entry.name (entry.source.content world)) ↔
      ∀ reference ∈ references, ∀ name, baseName? reference = some name →
        holds name (liftIo (world.read (root.below reference))) := by
  constructor
  · intro all reference member name named
    obtain ⟨entry, made⟩ := Option.isSome_iff_exists.mp (brings.2 reference member)
    have among : entry ∈ brought := by
      rw [brings.1]
      exact List.mem_filterMap.mpr ⟨reference, member, made⟩
    have fits := all entry among
    rw [(bring?_eq_some made).2] at fits
    have same : entry.name = name :=
      Option.some.inj ((bring?_eq_some made).1.symm.trans named)
    rwa [same] at fits
  · intro all entry among
    rw [brings.1] at among
    obtain ⟨reference, member, made⟩ := List.mem_filterMap.mp among
    rw [(bring?_eq_some made).2]
    exact all reference member entry.name (bring?_eq_some made).1

/-- What is brought in agrees exactly if the shaders of one base name do. -/
theorem Brought.agree_iff {references : List String} {brought : List ArchiveEntry}
    (brings : Brought world root references brought) :
    Agree world brought ↔ ∀ left ∈ references, ∀ right ∈ references,
      baseName? left = baseName? right →
        world.read (root.below left) = world.read (root.below right) := by
  have first := brings.forall_iff fun name content => ∀ right ∈ brought, name = right.name →
    content = right.source.content world
  have second := fun (name : String) (content : Except JobError ByteArray) =>
    brings.forall_iff fun other bytes => name = other → content = bytes
  refine first.trans ⟨fun agree left there right also same => ?_,
    fun agree left there name named => (second name _).mpr fun right also other named' same => ?_⟩
  · obtain ⟨entry, made⟩ := Option.isSome_iff_exists.mp (brings.2 left there)
    have named := (bring?_eq_some made).1
    exact liftIo_inj ((second _ _).mp (agree left there _ named) right also _
      (same.symm.trans named) rfl)
  · rw [agree left there right also (named.trans (same ▸ named'.symm))]

/-- What is brought in has the bytes of an entry under its name exactly if the shaders do. -/
theorem Brought.agree_with_iff {references : List String} {brought : List ArchiveEntry}
    (brings : Brought world root references brought) (entry : ArchiveEntry) :
    (∀ left ∈ brought, left.name = entry.name →
        left.source.content world = entry.source.content world) ↔
      ∀ reference ∈ references, baseName? reference = some entry.name →
        liftIo (world.read (root.below reference)) = entry.source.content world := by
  refine (brings.forall_iff fun name content => name = entry.name →
    content = entry.source.content world).trans ⟨fun agree reference member named => ?_,
      fun agree reference member name named same => ?_⟩
  · exact agree reference member _ named rfl
  · exact agree reference member (same ▸ named)

/-- **A config beside what it brings in and the shaders below the root.** -/
theorem config_agree_iff {config : ConfigFile} {brought : List ArchiveEntry} {own : ArchiveEntry}
    (brings : Brought world root config.parentReferences brought)
    (named : isConfigName own.name = true)
    (shipped : config.parentReferences ≠ [] →
      own.source.content world = .ok config.shipped.render.toUTF8) :
    Agree world (brought ++ own :: filed root (discoverShaders world root)) ↔
      (∀ left ∈ config.parentReferences, ∀ right ∈ config.parentReferences,
        baseName? left = baseName? right →
          world.read (root.below left) = world.read (root.below right)) ∧
      (∀ reference ∈ config.parentReferences, baseName? reference = some own.name →
        world.read (root.below reference) = .ok config.shipped.render.toUTF8) ∧
      ∀ reference ∈ config.parentReferences, ∀ shader ∈ discoverShaders world root,
        baseName? reference = some (filedName shader) →
          world.read (root.below reference) = world.read (root.join shader) := by
  have neverOwn : ∀ right ∈ filed root (discoverShaders world root), own.name ≠ right.name := by
    intro right also same
    obtain ⟨shader, among, rfl⟩ := List.mem_map.mp also
    obtain ⟨_, _, _, isShader⟩ := mem_filesNamed among
    have filedAs : own.name = filedName shader := same
    have shaderNamed := isShaderName_filedName isShader
    rw [← filedAs, isShaderName_of_isConfigName named] at shaderNamed
    cases shaderNamed
  have rest : Agree world (own :: filed root (discoverShaders world root)) :=
    agree_cons.mpr ⟨agree_filed _ _ _, fun right also same => absurd same (neverOwn right also)⟩
  rw [agree_append, brings.agree_iff, and_iff_right rest]
  refine and_congr_right fun _ => ⟨fun across => ⟨fun reference member same => liftIo_inj ?_,
    fun reference member shader among same => liftIo_inj ?_⟩, ?_⟩
  · have withOwn := (brings.agree_with_iff own).mp fun left there =>
      across left there own List.mem_cons_self
    rw [withOwn reference member same, shipped (List.ne_nil_of_mem member)]
    rfl
  · have withShader := (brings.agree_with_iff ⟨filedName shader, .file (root.join shader)⟩).mp
      fun left there => across left there _ (List.mem_cons_of_mem _ (List.mem_map_of_mem among))
    exact withShader reference member same
  · rintro ⟨itself, below⟩ left there right also
    rcases List.mem_cons.mp also with rfl | filed
    · refine (brings.agree_with_iff right).mpr (fun reference member same => ?_) left there
      rw [itself reference member same, shipped (List.ne_nil_of_mem member)]
      rfl
    · refine (brings.agree_with_iff right).mpr (fun reference member same => ?_) left there
      obtain ⟨shader, among, rfl⟩ := List.mem_map.mp filed
      rw [below reference member shader among same]
      rfl

theorem fileNameOf_ok (given : fileNameOf path = .ok name) : path.fileName? = some name := by
  unfold fileNameOf at given
  split at given
  · cases given
  · next found named =>
    cases given
    exact named

/-- The entries for a config: what it brings in, itself, and the shaders below the root. -/
theorem configCandidates_ok (given : configCandidates world root path = .ok candidates) :
    ∃ config own brought, ConfigFile.load world path = .ok config ∧
      path.fileName? = some own.name ∧ Brought world root config.parentReferences brought ∧
      (config.parentReferences ≠ [] →
        own.source.content world = .ok config.shipped.render.toUTF8) ∧
      candidates = brought ++ own :: filed root (discoverShaders world root) := by
  obtain ⟨config, loaded, given⟩ := except_bind_ok given
  obtain ⟨name, named, given⟩ := except_bind_ok given
  obtain ⟨⟨flats, brought⟩, flat, given⟩ := except_bind_ok given
  cases given
  obtain ⟨rfl, brings⟩ := flattenEntries_ok flat
  refine ⟨config, ⟨name, configSource path config _ brought⟩, brought, loaded,
    fileNameOf_ok named, brings, fun some_reference => ?_, rfl⟩
  obtain ⟨reference, member⟩ := List.exists_mem_of_ne_nil _ some_reference
  obtain ⟨entry, made⟩ := Option.isSome_iff_exists.mp (brings.2 reference member)
  have some_brought : brought.isEmpty = false := by
    rw [List.isEmpty_eq_false_iff, brings.1]
    exact List.ne_nil_of_mem (List.mem_filterMap.mpr ⟨reference, member, made⟩)
  rw [configSource, some_brought]
  rfl

/-- **A shader beside its config and its companion.** -/
theorem shader_agree_iff {target : ShaderTarget} {companion : String}
    (shader : isShaderName name = true) :
    Agree world [⟨canonicalName, .bytes target.ownConfig.render.toUTF8⟩,
        ⟨name, .file target.shader⟩, ⟨companion, .file target.companion⟩] ↔
      (companion = name → world.read target.companion = world.read target.shader) ∧
        (companion = canonicalName →
          world.read target.companion = .ok target.ownConfig.render.toUTF8) := by
  have apart : canonicalName ≠ name := by
    rintro rfl
    exact absurd shader (by decide)
  constructor
  · intro agree
    refine ⟨fun same => liftIo_inj ?_, fun same => liftIo_inj ?_⟩
    · exact agree ⟨companion, .file target.companion⟩ (by simp) ⟨name, .file target.shader⟩
        (by simp) same
    · exact agree ⟨companion, .file target.companion⟩ (by simp)
        ⟨canonicalName, .bytes target.ownConfig.render.toUTF8⟩ (by simp) same
  · rintro ⟨withShader, withConfig⟩ left there right also same
    simp only [List.mem_cons, List.not_mem_nil, or_false] at there also
    rcases there with rfl | rfl | rfl
    · rcases also with rfl | rfl | rfl
      · rfl
      · exact absurd same apart
      · exact (congrArg liftIo (withConfig same.symm)).symm
    · rcases also with rfl | rfl | rfl
      · exact absurd same.symm apart
      · rfl
      · exact (congrArg liftIo (withShader same.symm)).symm
    · rcases also with rfl | rfl | rfl
      · exact congrArg liftIo (withConfig same)
      · exact congrArg liftIo (withShader same)
      · rfl

/-- **What is left out of a plan.** Of a directory nothing is. Of any input, every entry that is
left out has the bytes of the entry that is kept under its name exactly if the few pairs that can
share a name have the same bytes. -/
theorem plan_clashes (resolved : JobInput.resolve world path = .ok input)
    (planned : input.plan world = .ok plan) :
    ∃ candidates, input.candidates world = .ok candidates ∧ plan = firstOfEachName candidates ∧
      (∀ root, input = .directory root → plan = candidates) ∧
      ((∀ entry holder, Dropped candidates entry holder →
          entry.source.content world = holder.source.content world) ↔
        input.ClashesAgree world) := by
  obtain ⟨candidates, gathered, rfl⟩ := JobInput.plan_ok planned
  refine ⟨candidates, gathered, rfl, ?_, ?_⟩
  · rintro root rfl
    cases gathered
    exact firstOfEachName_of_distinct (filed_distinct isSourceName world root)
  · rw [dropped_agree_iff fun entry => entry.source.content world]
    rcases JobInput.resolve_ok resolved with ⟨root, rfl, -⟩ | ⟨name, rfl, named, isConfig, -⟩ |
      ⟨target, name, rfl, named, -, isShader, owned, -⟩
    · cases gathered
      exact iff_of_true (agree_filed isSourceName world root) trivial
    · obtain ⟨config, own, brought, loaded, ownName, brings, shipped, rfl⟩ :=
        configCandidates_ok gathered
      have sameName : own.name = name := Option.some.inj (ownName.symm.trans named)
      refine (config_agree_iff brings (sameName ▸ isConfig) shipped).trans ?_
      show _ ↔ ∀ config, ConfigFile.load world path = .ok config → _
      rw [← ownName]
      constructor
      · intro agree other again
        cases loaded.symm.trans again
        exact agree
      · exact fun agree => agree config loaded
    · obtain ⟨shaderName, own, gathered⟩ := except_bind_ok gathered
      obtain ⟨companionName, other, gathered⟩ := except_bind_ok gathered
      cases gathered
      have ownName := fileNameOf_ok own
      have otherName := fileNameOf_ok other
      have sameName : shaderName = name := by
        obtain ⟨-, -, -, -, -, -, -, same, -⟩ := owner?_ok owned
        rw [same, named] at ownName
        exact (Option.some.inj ownName).symm
      refine (shader_agree_iff (sameName ▸ isShader)).trans ?_
      show _ ↔ (target.companion.fileName? = target.shader.fileName? → _) ∧
        (target.companion.fileName? = some canonicalName → _)
      rw [ownName, otherName, Option.some.injEq, Option.some.injEq]

/-! ## Part 5 — two shaders of one name -/

/-- The text of a config whose two shaders lie outside of its root, under one base name. -/
def clashingText : String :=
  "\x7b\"data\":[\x7b\"vsh\":\"../a/s.vert\",\"fsh\":\"../b/s.vert\"\x7d]\x7d"

/-- The config in that text. -/
def clashingConfig : ConfigFile :=
  ⟨none, none, [⟨none, none, "../a/s.vert", "../b/s.vert", none, []⟩], []⟩

/-- A world with that config, and the bytes of both shaders. -/
def clashingWorld (first second : ByteArray) : World :=
  World.ofNodes [] [([⟨"job", by decide⟩], .directory),
    ([⟨"x.sl.json", by decide⟩, ⟨"job", by decide⟩], .file clashingText.toUTF8),
    ([⟨"a", by decide⟩], .directory), ([⟨"b", by decide⟩], .directory),
    ([⟨"s.vert", by decide⟩, ⟨"a", by decide⟩], .file first),
    ([⟨"s.vert", by decide⟩, ⟨"b", by decide⟩], .file second)] (by simp only [List.map]; decide)
    (by rfl)

theorem clashing_load (first second : ByteArray) :
    ConfigFile.load (clashingWorld first second) ⟨"/job/x.sl.json"⟩ = .ok clashingConfig := by
  have bytes : (clashingWorld first second).read ⟨"/job/x.sl.json"⟩ = .ok clashingText.toUTF8 := by
    rfl
  have text : String.fromUTF8? clashingText.toUTF8 = some clashingText :=
    dif_pos clashingText.isValidUTF8
  have parsed : ConfigFile.parse clashingText = .ok clashingConfig := by rfl
  rw [ConfigFile.load, World.readText, bytes]
  dsimp only
  rw [text]
  show (ConfigFile.parse clashingText).mapError _ = _
  rw [parsed]
  rfl

theorem clashing_resolve (first second : ByteArray) :
    JobInput.resolve (clashingWorld first second) ⟨"/job/x.sl.json"⟩ =
      .ok (.config ⟨"/job"⟩ ⟨"/job/x.sl.json"⟩) := by
  have there : (clashingWorld first second).find? ⟨"/job/x.sl.json"⟩ =
      some ([⟨"x.sl.json", by decide⟩, ⟨"job", by decide⟩], .file clashingText.toUTF8) := by rfl
  have valid :
      validateConfig (clashingWorld first second) ⟨"/job/x.sl.json"⟩ ⟨"/job"⟩ = .ok ⟨⟩ := by
    rw [validateConfig, clashing_load]
    rfl
  have parent : directoryOf ⟨"/job/x.sl.json"⟩ = ⟨"/job"⟩ := by rfl
  have named : Path.fileName? ⟨"/job/x.sl.json"⟩ = some "x.sl.json" := by rfl
  rw [JobInput.resolve, there]
  dsimp only
  rw [JobInput.resolveFile, named]
  dsimp only
  rw [parent, if_pos (by decide), valid]
  rfl

theorem clashing_shaders (first second : ByteArray) :
    discoverShaders (clashingWorld first second) ⟨"/job"⟩ = [] := by
  have scannable : isScannable ⟨"/job"⟩ = true := by decide +kernel
  have start : scanStart? (clashingWorld first second) ⟨"/job"⟩ = some [⟨"job", by decide⟩] := by
    cbv
  rw [discoverShaders, filesNamed, sorted_eq_nil, found, scannable, start]
  rfl

theorem clashing_candidates (first second : ByteArray) :
    JobInput.candidates (clashingWorld first second) (.config ⟨"/job"⟩ ⟨"/job/x.sl.json"⟩) =
      .ok [⟨"s.vert", .bytes first⟩, ⟨"s.vert", .bytes second⟩,
        ⟨"x.sl.json", .bytes clashingConfig.shipped.render.toUTF8⟩] := by
  have flat : flattenEntries (clashingWorld first second) ⟨"/job"⟩ ⟨"/job/x.sl.json"⟩
      clashingConfig.entries = .ok (clashingConfig.shipped.entries,
        [⟨"s.vert", .bytes first⟩, ⟨"s.vert", .bytes second⟩]) := by rfl
  have named : fileNameOf ⟨"/job/x.sl.json"⟩ = .ok "x.sl.json" := by rfl
  simp only [JobInput.candidates, configCandidates, clashing_load, named, bind, Except.bind]
  rw [flat, clashing_shaders]
  rfl

theorem clashing_plan (first second : ByteArray) :
    JobInput.plan (clashingWorld first second) (.config ⟨"/job"⟩ ⟨"/job/x.sl.json"⟩) =
      .ok [⟨"s.vert", .bytes first⟩,
        ⟨"x.sl.json", .bytes clashingConfig.shipped.render.toUTF8⟩] := by
  rw [JobInput.plan, clashing_candidates]
  rfl

/-- **An entry may be left out though its bytes are not those of the entry that is kept.** -/
theorem dropped_may_differ :
    ¬ ∀ (world : World) (path : Path) (input : JobInput) (plan candidates : List ArchiveEntry),
      JobInput.resolve world path = .ok input → input.plan world = .ok plan →
        input.candidates world = .ok candidates →
          ∀ entry holder, Dropped candidates entry holder →
            entry.source.content world = holder.source.content world := by
  intro always
  have dropped : Dropped [⟨"s.vert", .bytes ⟨#[1]⟩⟩, ⟨"s.vert", .bytes ⟨#[2]⟩⟩,
      ⟨"x.sl.json", .bytes clashingConfig.shipped.render.toUTF8⟩] ⟨"s.vert", .bytes ⟨#[2]⟩⟩
      ⟨"s.vert", .bytes ⟨#[1]⟩⟩ := ⟨[_], [_], rfl, List.mem_cons_self, rfl⟩
  have same := always _ _ _ _ _ (clashing_resolve ⟨#[1]⟩ ⟨#[2]⟩) (clashing_plan ⟨#[1]⟩ ⟨#[2]⟩)
    (clashing_candidates ⟨#[1]⟩ ⟨#[2]⟩) _ _ dropped
  cases same

/-- Where both shaders have the same bytes, what is left out has the bytes of what is kept. -/
theorem plan_clashes_same_bytes :
    ∃ candidates, JobInput.candidates (clashingWorld ⟨#[1]⟩ ⟨#[1]⟩)
        (.config ⟨"/job"⟩ ⟨"/job/x.sl.json"⟩) = .ok candidates ∧
      ∀ entry holder, Dropped candidates entry holder →
        entry.source.content (clashingWorld ⟨#[1]⟩ ⟨#[1]⟩) =
          holder.source.content (clashingWorld ⟨#[1]⟩ ⟨#[1]⟩) := by
  obtain ⟨candidates, gathered, -, -, exactly⟩ :=
    plan_clashes (clashing_resolve ⟨#[1]⟩ ⟨#[1]⟩) (clashing_plan ⟨#[1]⟩ ⟨#[1]⟩)
  refine ⟨candidates, gathered, exactly.mpr ?_⟩
  intro config loaded
  obtain rfl := Except.ok.inj ((clashing_load ⟨#[1]⟩ ⟨#[1]⟩).symm.trans loaded)
  have references : clashingConfig.parentReferences = ["../a/s.vert", "../b/s.vert"] := by rfl
  have bytes : ∀ reference ∈ ["../a/s.vert", "../b/s.vert"],
      (clashingWorld ⟨#[1]⟩ ⟨#[1]⟩).read (Path.below ⟨"/job"⟩ reference) = .ok ⟨#[1]⟩ ∧
        baseName? reference = some "s.vert" := by
    intro reference member
    rcases List.mem_cons.mp member with rfl | member
    · exact ⟨by rfl, by rfl⟩
    · rw [List.mem_singleton.mp member]
      exact ⟨by rfl, by rfl⟩
  rw [references]
  refine ⟨fun left there right also _ => ?_, fun reference member same => ?_,
    fun reference member shader among _ => ?_⟩
  · rw [(bytes left there).1, (bytes right also).1]
  · rw [(bytes reference member).2] at same
    exact absurd (Option.some.inj same) (by decide)
  · rw [clashing_shaders] at among
    exact absurd among List.not_mem_nil

end ShaderForge

/-
**Findings by file.**

A collection shows some findings (`DiagnosticCollection.Shows`) if it lists each of their files
once, in the order of paths, and has with each file the findings about it, in the order in which
they came. Two spellings of the same components are one file. It counts all findings, and the errors
among them. This leaves nothing open: two collections that show the same findings are the same
(`Shows.unique`).

Findings are inserted into groups one at a time. In sorted groups an insertion does one of two
things (`Inserted`): it joins the one group of its file, or it opens a group between those that come
before its file and those that come after. Groups of some findings (`GroupsOf`) are therefore groups
of one more after each insertion (`GroupsOf.insert`), and after any number of them groups of all
that was inserted (`groupsOf_groupByFile`).

A collection is filled and emptied again and again. Each time it shows what was last put in,
whatever was in it before (`shows_after`, by induction on what was done), and so putting findings in
leaves a collection with these findings and no others (`shows_replaced`).
-/

import ShaderForge.Proofs.Listings
import ShaderForge.Proofs.PublishedFindings

namespace ShaderForge

/-! ## Part 1 — the order of files -/

namespace Path

variable {left right : Path}

/-- Keys tell components apart. -/
theorem key_inj : left.key = right.key ↔ left.components = right.components :=
  (List.map_injective_iff.mpr fun _ _ => Component.eq_of_key).eq_iff

/-- **Two paths are the same if they have the same components.** -/
theorem same_iff : left.same right = true ↔ left.components = right.components :=
  beq_iff_eq.trans key_inj

/-- What comes before another path is not that path. -/
theorem components_ne_of_precedes (before : left.precedes right = true) :
    left.components ≠ right.components := by
  intro alike
  have less := precedes_iff.mp before
  rw [key_inj.mpr alike] at less
  exact lt_irrefl _ less

theorem precedes_trans {middle : Path} (first : left.precedes middle = true)
    (second : middle.precedes right = true) : left.precedes right = true :=
  precedes_iff.mpr ((precedes_iff.mp first).trans (precedes_iff.mp second))

/-- Of two paths that differ one comes before the other. -/
theorem precedes_of_not (different : ¬ left.same right = true)
    (after : ¬ right.precedes left = true) : left.precedes right = true := by
  rw [precedes_iff, not_lt] at after
  rw [same_iff, ← key_inj] at different
  exact precedes_iff.mpr (lt_of_le_of_ne after different)

end Path

namespace DiagnosticCollection

variable {collection other : DiagnosticCollection} {diagnostics : List Diagnostic} {file : Path}

/-! ## Part 2 — what a collection shows -/

/-- The files of findings, in the order in which they came. -/
def namedFiles (diagnostics : List Diagnostic) : List Path :=
  diagnostics.map fun diagnostic => diagnostic.location.file

/-- The findings about a file, however the file is spelled, in the order in which they came. -/
def findingsAbout (file : Path) (diagnostics : List Diagnostic) : List Diagnostic :=
  diagnostics.filter fun diagnostic => diagnostic.location.file.components = file.components

/-- **A collection shows some findings.** Its files are in the order of paths; each file of the
findings is listed once, as it was spelled first; with a file there are the findings about it, also
when it is asked for; all findings are counted, and the errors among them. -/
structure Shows (collection : DiagnosticCollection) (diagnostics : List Diagnostic) : Prop where
  ordered : (collection.files.map Prod.fst).Pairwise fun left right => left.precedes right = true
  once : ∀ diagnostic ∈ diagnostics, ∃! file, file ∈ collection.files.map Prod.fst ∧
    file.components = diagnostic.location.file.components
  spelled : ∀ file ∈ collection.files.map Prod.fst,
    (namedFiles diagnostics).find? (fun other => other.components = file.components) = some file
  listed : ∀ group ∈ collection.files, group.2 = findingsAbout group.1 diagnostics
  gives : ∀ file, collection.get file = findingsAbout file diagnostics
  size : collection.size = diagnostics.length
  errors : collection.errors = diagnostics.countP fun diagnostic => diagnostic.severity = .error
  isEmpty : collection.isEmpty = true ↔ diagnostics = []

/-- **A collection is determined by what it shows.** -/
theorem Shows.unique (shows : collection.Shows diagnostics)
    (shows' : other.Shows diagnostics) : collection = other := by
  have within : ∀ {one another : DiagnosticCollection}, one.Shows diagnostics →
      another.Shows diagnostics →
        ∀ file ∈ one.files.map Prod.fst, file ∈ another.files.map Prod.fst := by
    intro one another first second file member
    have spelled := first.spelled file member
    obtain ⟨diagnostic, among, named⟩ := List.mem_map.mp (List.mem_of_find?_eq_some spelled)
    obtain ⟨again, ⟨there, alike⟩, -⟩ := second.once diagnostic among
    have respelled := second.spelled again there
    rw [alike, named, spelled] at respelled
    rwa [Option.some.inj respelled]
  have files : collection.files.map Prod.fst = other.files.map Prod.fst :=
    Path.ordered_ext shows.ordered shows'.ordered fun file =>
      ⟨within shows shows' file, within shows' shows file⟩
  have paired : ∀ {one : DiagnosticCollection}, one.Shows diagnostics →
      one.files =
        (one.files.map Prod.fst).map fun file => (file, findingsAbout file diagnostics) := by
    intro one first
    rw [List.map_map]
    conv_lhs => rw [← List.map_id one.files]
    exact List.map_congr_left fun group member => Prod.ext rfl (first.listed group member)
  have same : collection.files = other.files := by rw [paired shows, paired shows', files]
  obtain ⟨groups⟩ := collection
  obtain ⟨others⟩ := other
  exact congrArg DiagnosticCollection.mk same

/-! ## Part 3 — one finding more -/

/-- Groups in the order of their files. -/
def InFileOrder (groups : List (Path × List Diagnostic)) : Prop :=
  groups.Pairwise fun left right => left.1.precedes right.1 = true

/-- **What a further finding does to groups**: it joins the group of its file, or opens a group
between those that come before its file and those that come after. -/
inductive Inserted (diagnostic : Diagnostic) :
    List (Path × List Diagnostic) → List (Path × List Diagnostic) → Prop
  | joins (before after : List (Path × List Diagnostic)) (file : Path) (findings : List Diagnostic)
    (alike : file.components = diagnostic.location.file.components) :
    Inserted diagnostic (before ++ (file, findings) :: after)
      (before ++ (file, findings ++ [diagnostic]) :: after)
  | opens (before after : List (Path × List Diagnostic))
    (above : ∀ group ∈ before, group.1.precedes diagnostic.location.file = true)
    (below : ∀ group ∈ after, diagnostic.location.file.precedes group.1 = true) :
    Inserted diagnostic (before ++ after)
      (before ++ (diagnostic.location.file, [diagnostic]) :: after)

variable {groups groups' : List (Path × List Diagnostic)} {diagnostic : Diagnostic}

theorem inserted_insertFinding (ordered : InFileOrder groups) :
    Inserted diagnostic groups (insertFinding groups diagnostic) := by
  induction groups with
  | nil => exact .opens [] [] (List.forall_mem_nil _) (List.forall_mem_nil _)
  | cons group later ih =>
    obtain ⟨first, findings⟩ := group
    obtain ⟨lowest, rest⟩ := List.pairwise_cons.mp ordered
    rw [insertFinding]
    split
    · next same => exact .joins [] later first findings (Path.same_iff.mp same)
    · next different =>
      split
      · next comes =>
        refine .opens [] _ (List.forall_mem_nil _) (List.forall_mem_cons.mpr ⟨comes, ?_⟩)
        exact fun group member => Path.precedes_trans comes (lowest group member)
      · next behind =>
        have ahead := Path.precedes_of_not different behind
        generalize insertFinding later diagnostic = inserted at ih
        cases ih rest with
        | joins before after file joined alike =>
          exact .joins ((first, findings) :: before) after file joined alike
        | opens before after above below =>
          exact .opens ((first, findings) :: before) after
            (List.forall_mem_cons.mpr ⟨ahead, above⟩) below

theorem Inserted.ordered (inserted : Inserted diagnostic groups groups')
    (ordered : InFileOrder groups) : InFileOrder groups' := by
  cases inserted with
  | joins before after file findings alike =>
    simpa only [InFileOrder, List.pairwise_append, List.pairwise_cons, List.forall_mem_cons]
      using ordered
  | opens before after above below =>
    obtain ⟨front, back, across⟩ := List.pairwise_append.mp ordered
    refine List.pairwise_append.mpr ⟨front, List.pairwise_cons.mpr ⟨below, back⟩, ?_⟩
    exact fun group member => List.forall_mem_cons.mpr ⟨above group member, across group member⟩

/-- No file is lost. -/
theorem Inserted.keeps (inserted : Inserted diagnostic groups groups')
    (member : file ∈ groups.map Prod.fst) : file ∈ groups'.map Prod.fst := by
  cases inserted with
  | joins before after other findings alike => simpa using member
  | opens before after above below =>
    rw [List.map_append, List.mem_append] at member
    rw [List.map_append, List.mem_append, List.map_cons, List.mem_cons]
    exact member.imp_right .inr

/-- The file of the finding is there. -/
theorem Inserted.adds (inserted : Inserted diagnostic groups groups') :
    ∃ file ∈ groups'.map Prod.fst, file.components = diagnostic.location.file.components := by
  cases inserted with
  | joins before after file findings alike => exact ⟨file, by simp, alike⟩
  | opens before after above below => exact ⟨diagnostic.location.file, by simp, rfl⟩

/-- **Where a group comes from** that is there after an insertion: it is about another file and was
there before, or the finding joined it, or it was opened for the finding. -/
inductive Origin (diagnostic : Diagnostic) (groups : List (Path × List Diagnostic)) :
    Path × List Diagnostic → Prop
  | kept {group : Path × List Diagnostic} (member : group ∈ groups)
    (different : group.1.components ≠ diagnostic.location.file.components) :
    Origin diagnostic groups group
  | joined {file : Path} {findings : List Diagnostic} (member : (file, findings) ∈ groups)
    (alike : file.components = diagnostic.location.file.components) :
    Origin diagnostic groups (file, findings ++ [diagnostic])
  | opened (fresh : ∀ group ∈ groups,
      group.1.components ≠ diagnostic.location.file.components) :
    Origin diagnostic groups (diagnostic.location.file, [diagnostic])

theorem Inserted.origin (inserted : Inserted diagnostic groups groups')
    (ordered : InFileOrder groups) : ∀ group ∈ groups', Origin diagnostic groups group := by
  cases inserted with
  | joins before after file findings alike =>
    obtain ⟨-, rest, across⟩ := List.pairwise_append.mp ordered
    obtain ⟨lowest, -⟩ := List.pairwise_cons.mp rest
    intro group member
    rcases List.mem_append.mp member with front | back
    · refine .kept (List.mem_append_left _ front) (alike ▸ ?_)
      exact Path.components_ne_of_precedes (across group front _ List.mem_cons_self)
    · rcases List.mem_cons.mp back with rfl | back
      · exact .joined (List.mem_append_right _ List.mem_cons_self) alike
      · refine .kept (List.mem_append_right _ (List.mem_cons_of_mem _ back)) (alike ▸ ?_)
        exact (Path.components_ne_of_precedes (lowest group back)).symm
  | opens before after above below =>
    have fresh : ∀ group ∈ before ++ after,
        group.1.components ≠ diagnostic.location.file.components :=
      List.forall_mem_append.mpr
        ⟨fun group member => Path.components_ne_of_precedes (above group member),
          fun group member => (Path.components_ne_of_precedes (below group member)).symm⟩
    intro group member
    rw [List.mem_append, List.mem_cons, or_left_comm, ← List.mem_append] at member
    rcases member with rfl | old
    · exact .opened fresh
    · exact .kept old (fresh group old)

/-! ## Part 4 — groups of findings -/

/-- **Groups of some findings**, by file: in order, each file of the findings once, under its first
spelling and with all that is about it. -/
structure GroupsOf (diagnostics : List Diagnostic) (groups : List (Path × List Diagnostic)) :
    Prop where
  ordered : InFileOrder groups
  covered : ∀ diagnostic ∈ diagnostics, ∃ file ∈ groups.map Prod.fst,
    file.components = diagnostic.location.file.components
  spelled : ∀ group ∈ groups,
    (namedFiles diagnostics).find? (fun other => other.components = group.1.components) =
      some group.1
  listed : ∀ group ∈ groups, group.2 = findingsAbout group.1 diagnostics

theorem findingsAbout_concat_alike
    (alike : file.components = diagnostic.location.file.components) :
    findingsAbout file (diagnostics ++ [diagnostic]) =
      findingsAbout file diagnostics ++ [diagnostic] := by
  simp [findingsAbout, alike]

theorem findingsAbout_concat_other
    (different : file.components ≠ diagnostic.location.file.components) :
    findingsAbout file (diagnostics ++ [diagnostic]) = findingsAbout file diagnostics := by
  simp [findingsAbout, different.symm]

/-- What a fresh file is opened for is the first finding about it. -/
theorem GroupsOf.first (grouped : GroupsOf diagnostics groups)
    (fresh : ∀ group ∈ groups, group.1.components ≠ file.components) :
    ∀ diagnostic ∈ diagnostics, diagnostic.location.file.components ≠ file.components := by
  intro diagnostic among
  obtain ⟨known, listed, alike⟩ := grouped.covered diagnostic among
  obtain ⟨group, member, rfl⟩ := List.mem_map.mp listed
  exact alike ▸ fresh group member

/-- **One finding more** is in the groups after it was inserted. -/
theorem GroupsOf.insert (grouped : GroupsOf diagnostics groups) (diagnostic : Diagnostic) :
    GroupsOf (diagnostics ++ [diagnostic]) (insertFinding groups diagnostic) := by
  have inserted : Inserted diagnostic groups (insertFinding groups diagnostic) :=
    inserted_insertFinding grouped.ordered
  generalize insertFinding groups diagnostic = groups' at inserted
  have origin := inserted.origin grouped.ordered
  refine ⟨inserted.ordered grouped.ordered, List.forall_mem_append.mpr ⟨?_, ?_⟩, ?_, ?_⟩
  · intro earlier among
    obtain ⟨file, listed, alike⟩ := grouped.covered earlier among
    exact ⟨file, inserted.keeps listed, alike⟩
  · exact List.forall_mem_singleton.mpr inserted.adds
  · intro group member
    rw [namedFiles, List.map_append, List.find?_append, ← namedFiles]
    cases origin group member with
    | kept old _ => rw [grouped.spelled group old, Option.some_or]
    | joined old _ => rw [grouped.spelled _ old, Option.some_or]
    | opened fresh =>
      have nowhere : (namedFiles diagnostics).find? (fun other =>
          other.components = diagnostic.location.file.components) = none := by
        simpa [namedFiles] using grouped.first fresh
      rw [nowhere, Option.none_or]
      exact List.find?_cons_of_pos (decide_eq_true rfl)
  · intro group member
    cases origin group member with
    | kept old different => rw [findingsAbout_concat_other different, grouped.listed group old]
    | joined old alike => rw [findingsAbout_concat_alike alike, ← grouped.listed _ old]
    | opened fresh =>
      have nothing : findingsAbout diagnostic.location.file diagnostics = [] := by
        simpa [findingsAbout] using grouped.first fresh
      rw [findingsAbout_concat_alike rfl, nothing, List.nil_append]

/-- **Findings inserted one after the other** are what the groups group. -/
theorem groupsOf_groupByFile (diagnostics : List Diagnostic) :
    GroupsOf diagnostics (groupByFile diagnostics) := by
  induction diagnostics using List.reverseRecOn with
  | nil => exact ⟨.nil, by simp, by simp [groupByFile], by simp [groupByFile]⟩
  | append_singleton diagnostics diagnostic ih =>
    rw [groupByFile, List.foldl_concat]
    exact ih.insert diagnostic

/-- A file is listed in one spelling. -/
theorem GroupsOf.one_spelling {first second : Path} (grouped : GroupsOf diagnostics groups)
    (listed : first ∈ groups.map Prod.fst) (listed' : second ∈ groups.map Prod.fst)
    (alike : first.components = second.components) : first = second := by
  obtain ⟨group, member, rfl⟩ := List.mem_map.mp listed
  obtain ⟨group', member', rfl⟩ := List.mem_map.mp listed'
  have spelled := grouped.spelled group member
  rw [alike, grouped.spelled group' member'] at spelled
  exact (Option.some.inj spelled).symm

/-- **A file gives the findings about it**, and one that is not listed gives none. -/
theorem get_replace (file : Path) :
    (collection.replace diagnostics).get file = findingsAbout file diagnostics := by
  have grouped := groupsOf_groupByFile diagnostics
  rw [get, replace]
  cases found : (groupByFile diagnostics).find? fun group => group.1.same file with
  | some group =>
    have same := List.find?_some found
    show group.2 = _
    rw [grouped.listed group (List.mem_of_find?_eq_some found), findingsAbout, findingsAbout,
      Path.same_iff.mp same]
  | none =>
    have nowhere : ∀ group ∈ groupByFile diagnostics, group.1.components ≠ file.components := by
      intro group member alike
      exact List.find?_eq_none.mp found group member (Path.same_iff.mpr alike)
    simpa [findingsAbout] using grouped.first nowhere

/-- **Findings that are put in are shown**, whatever was there before. -/
theorem shows_replace (collection : DiagnosticCollection) (diagnostics : List Diagnostic) :
    (collection.replace diagnostics).Shows diagnostics := by
  have grouped := groupsOf_groupByFile diagnostics
  refine ⟨List.pairwise_map.mpr grouped.ordered, ?_, ?_, grouped.listed, get_replace,
    size_replace, errors_replace, ?_⟩
  · intro diagnostic among
    obtain ⟨file, listed, alike⟩ := grouped.covered diagnostic among
    refine ⟨file, ⟨listed, alike⟩, fun again there => ?_⟩
    exact grouped.one_spelling there.1 listed (there.2.trans alike.symm)
  · intro file listed
    obtain ⟨group, member, rfl⟩ := List.mem_map.mp listed
    exact grouped.spelled group member
  · rw [isEmpty, List.isEmpty_iff]
    refine ⟨fun none_left => ?_, fun none_left => none_left ▸ rfl⟩
    refine List.eq_nil_iff_forall_not_mem.mpr fun diagnostic among => ?_
    obtain ⟨file, listed, -⟩ := grouped.covered diagnostic among
    rw [show groupByFile diagnostics = [] from none_left] at listed
    exact List.not_mem_nil listed

/-! ## Part 5 — any history -/

/-- **What is done to a collection.** -/
inductive Operation
  | clear
  | replace (diagnostics : List Diagnostic)

namespace Operation

/-- A collection after an operation. -/
def apply (collection : DiagnosticCollection) : Operation → DiagnosticCollection
  | clear => collection.clear
  | replace diagnostics => collection.replace diagnostics

/-- The findings that an operation leaves. -/
def leaves : Operation → List Diagnostic
  | clear => []
  | replace diagnostics => diagnostics

end Operation

/-- A collection after some operations, in order. -/
def after (collection : DiagnosticCollection) (operations : List Operation) :
    DiagnosticCollection := operations.foldl Operation.apply collection

/-- The findings that some operations leave in a collection that showed others: those of the last
operation. -/
def lastLeft (diagnostics : List Diagnostic) (operations : List Operation) : List Diagnostic :=
  operations.foldl (fun _ operation => operation.leaves) diagnostics

theorem shows_empty : empty.Shows [] :=
  shows_replace empty []

/-- **One operation** leaves a collection that shows what the operation leaves. -/
theorem shows_apply (collection : DiagnosticCollection) (operation : Operation) :
    (operation.apply collection).Shows operation.leaves := by
  cases operation with
  | clear => exact shows_empty
  | replace diagnostics => exact shows_replace collection diagnostics

/-- **Any operations** leave a collection that shows what the last one left. -/
theorem shows_after (shows : collection.Shows diagnostics) (operations : List Operation) :
    (collection.after operations).Shows (lastLeft diagnostics operations) := by
  induction operations generalizing collection diagnostics with
  | nil => exact shows
  | cons operation operations ih => exact ih (shows_apply collection operation)

theorem lastLeft_concat (operations : List Operation) (last : Operation) :
    lastLeft diagnostics (operations ++ [last]) = last.leaves := by
  rw [lastLeft, List.foldl_concat]

/-- **A collection into which findings were put last shows these findings**, whatever was done to it
before, and it is the only one that shows them. -/
theorem shows_replaced (operations : List Operation) (diagnostics : List Diagnostic) :
    let collection := empty.after (operations ++ [.replace diagnostics])
    collection.Shows diagnostics ∧
      ∀ other : DiagnosticCollection, other.Shows diagnostics → other = collection := by
  intro collection
  have shown : collection.Shows diagnostics := by
    have shown := shows_after shows_empty (operations ++ [.replace diagnostics])
    rwa [lastLeft_concat] at shown
  exact ⟨shown, fun other shows => shows.unique shown⟩

/-- Two spellings of one file are listed under the first of them, files in order. -/
example :
    ((empty.after [.replace [⟨.error, ⟨⟨"old"⟩, none, none⟩, "gone", []⟩], .replace
      [⟨.warning, ⟨⟨"b"⟩, none, none⟩, "late", []⟩, ⟨.error, ⟨⟨"a//x"⟩, none, none⟩, "first", []⟩,
        ⟨.error, ⟨⟨"a/./x"⟩, none, none⟩, "second", []⟩]]).files.map fun group =>
          (group.1, group.2.map Diagnostic.message)) =
      [(⟨"a//x"⟩, ["first", "second"]), (⟨"b"⟩, ["late"])] := by cbv

end DiagnosticCollection

end ShaderForge

/-
**The search for the owner of a shader.**

The owner of a shader is the first hit of a search with four orders in it: the directories on the
way up from the shader, the nearest one first; in each of them its configs, by their paths; in each
config its entries; and of each entry the vertex shader before the fragment shader. `FirstHit` says
so without the search, and `owner?_exact` that the search finds exactly this.

* `climbs_iff`: the directories are those that one climbs through, parent by parent, until there is
  none left or it is the empty path (`Path.Climbs`);
* `listsConfigs_iff`: the configs are the files in a directory that have the name of one, each
  strictly before the next (`ListsConfigs`);
* `entryFor?_eq_some_iff`: the entry is the first one that names the shader (`ConfigEntry.Hits`).

A config that cannot be loaded has no hit (`NoHitIn`), wherever it stands.
-/

import ShaderForge.Proofs.Listings
import ShaderForge.Proofs.OwningDirectories

namespace ShaderForge

variable {world : World} {shader directory path : Path} {place : Location} {fileName : String}
  {entry : ConfigEntry} {config : ConfigFile} {target : ShaderTarget}

/-! ## Part 1 — the directories on the way up -/

namespace Path

/-- **The way up from a path**: parent by parent, until there is none left or it is the empty
path. -/
inductive Climbs : Path → List Path → Prop
  | top {path : Path} (none : ∀ parent, path.parent? = some parent → parent.isEmpty = true) :
      Climbs path []
  | up {path parent : Path} {others : List Path} (above : path.parent? = some parent)
      (some_parent : parent.isEmpty = false) (later : Climbs parent others) :
      Climbs path (parent :: others)

/-- The directories that may own a shader are its way up. -/
theorem climbs_owningDirectories (path : Path) : path.Climbs (owningDirectories path) := by
  unfold owningDirectories
  generalize whole : path.parents = parents
  induction parents generalizing path with
  | nil =>
    refine .top fun parent above => ?_
    rw [parents_eq, above] at whole
    cases whole
  | cons parent parents ih =>
    obtain ⟨above, rest⟩ : path.parent? = some parent ∧ parent.parents = parents := by
      rw [parents_eq] at whole
      split at whole
      · cases whole
      · next other above =>
        obtain ⟨rfl, rest⟩ := List.cons.inj whole
        exact ⟨above, rest⟩
    cases nothing : parent.isEmpty with
    | true =>
      rw [List.takeWhile_cons_of_neg (by simp [nothing])]
      refine .top fun other same => ?_
      rw [above] at same
      cases same
      exact nothing
    | false =>
      rw [List.takeWhile_cons_of_pos (by simp [nothing])]
      exact .up above nothing (ih parent rest)

/-- There is one way up. -/
theorem Climbs.unique {first second : List Path} (climbs : path.Climbs first)
    (climbs' : path.Climbs second) : first = second := by
  induction climbs generalizing second with
  | top none =>
    cases climbs' with
    | top => rfl
    | up above some_parent =>
      rw [none _ above] at some_parent
      cases some_parent
  | up above some_parent _ ih =>
    cases climbs' with
    | top none =>
      rw [none _ above] at some_parent
      cases some_parent
    | up above' _ later =>
      rw [above] at above'
      cases above'
      rw [ih later]

/-- **The directories that may own a shader** are its way up, and nothing else is. -/
theorem climbs_iff {directories : List Path} :
    path.Climbs directories ↔ directories = owningDirectories path :=
  ⟨fun climbs => climbs.unique (climbs_owningDirectories path),
    fun same => same ▸ climbs_owningDirectories path⟩

end Path

/-! ## Part 2 — the configs of a directory -/

/-- **A config in a directory**: a file with the name of one. -/
def IsConfigIn (world : World) (directory configPath : Path) : Prop :=
  ∃ place name bytes, world.find directory = .ok (place, .directory) ∧
    world.node? (name :: place) = some (.file bytes) ∧ isConfigName name.text = true ∧
    configPath = directory.below name.text

/-- **The configs in a directory**, each strictly before the next. -/
structure ListsConfigs (world : World) (directory : Path) (configs : List Path) : Prop where
  ordered : configs.Pairwise fun left right => left.precedes right = true
  exact : ∀ configPath, configPath ∈ configs ↔ IsConfigIn world directory configPath

/-- A name below a path is its file name. -/
theorem Path.fileName?_below (path : Path) (name : EntryName) :
    (path.below name.text).fileName? = some name.text := by
  obtain ⟨proper, here, up, plain, -⟩ := isEntryName_iff.mp name.usable
  have relative : name.text.toList.head? ≠ some '/' := fun slash => plain (List.mem_of_head? slash)
  obtain ⟨front, edge, shape⟩ : ∃ front, Path.Edge front ∧
      joinChars path.text.toList name.text.toList = front ++ name.text.toList := by
    rw [joinChars, if_neg relative]
    split
    · exact ⟨[], .inl rfl, rfl⟩
    · next slash =>
      obtain ⟨before, same⟩ := List.getLast?_eq_some_iff.mp slash
      exact ⟨_, .inr ⟨before, same⟩, rfl⟩
    · exact ⟨path.text.toList ++ ['/'], .inr ⟨_, rfl⟩, by simp⟩
  have named := Path.fileName?_of_edge edge plain proper here up
  rw [String.ofList_toList] at named
  rw [below, join, shape]
  exact named

/-- Paths with one key have one file name. -/
theorem Path.fileName?_of_key {left right : Path} (same : left.key = right.key) :
    left.fileName? = right.fileName? := by
  have alike : left.components = right.components :=
    List.map_injective_iff.mpr (fun _ _ keys => Component.eq_of_key keys) same
  have last : ∀ path : Path, path.fileName? = path.components.getLast?.bind Component.name? := by
    intro path
    rw [fileName?, components, List.getLast?_map]
    cases path.steps.getLast? with
    | none => rfl
    | some step =>
      obtain ⟨component, before, through⟩ := step
      cases component <;> rfl
  rw [last, last, alike]

theorem mem_children_iff {name : EntryName} {node : Node} :
    (name, node) ∈ world.children place ↔ world.node? (name :: place) = some node := by
  rw [World.children, List.mem_filterMap]
  constructor
  · rintro ⟨⟨location, held⟩, member, found⟩
    cases location with
    | nil => cases found
    | cons first parent =>
      dsimp only at found
      split at found
      · next same =>
        cases found
        rw [← same]
        exact World.node?_of_mem member
      · cases found
  · intro found
    exact ⟨_, World.mem_of_node? found, if_pos rfl⟩

/-- No name stands twice in a directory. -/
theorem children_distinct (world : World) (place : Location) :
    (world.children place).Pairwise fun left right => left.1 ≠ right.1 := by
  refine List.pairwise_filterMap.mpr ((List.pairwise_map.mp world.distinct).imp ?_)
  rintro ⟨location, node⟩ ⟨other, node'⟩ apart ⟨name, _⟩ found ⟨name', _⟩ found' rfl
  cases location with
  | nil => cases found
  | cons first parent =>
    cases other with
    | nil => cases found'
    | cons second parent' =>
      dsimp only at found found' apart
      split at found
      · next same =>
        split at found'
        · next same' =>
          cases found
          cases found'
          exact apart (by rw [same, same'])
        · cases found'
      · cases found

/-- **What the search lists in a directory** are its configs in order, and nothing else is. -/
theorem listsConfigs_iff {configs : List Path} :
    ListsConfigs world directory configs ↔ configs = immediateConfigs world directory := by
  have lists : ListsConfigs world directory (immediateConfigs world directory) := by
    unfold immediateConfigs World.entriesIn
    cases found : world.find directory with
    | error fault =>
      refine ⟨List.Pairwise.nil, fun configPath => iff_of_false List.not_mem_nil ?_⟩
      rintro ⟨place, name, bytes, there, -⟩
      rw [found] at there
      cases there
    | ok held =>
      obtain ⟨place, node⟩ := held
      cases node with
      | file bytes =>
        refine ⟨List.Pairwise.nil, fun configPath => iff_of_false List.not_mem_nil ?_⟩
        rintro ⟨place, name, bytes, there, -⟩
        rw [found] at there
        cases there
      | directory =>
        refine ⟨Path.inOrder_strict (List.pairwise_map.mpr
          (((children_distinct world place).filter _).imp ?_)), fun configPath => ?_⟩
        · rintro ⟨name, _⟩ ⟨other, _⟩ apart same
          have names := Path.fileName?_of_key same
          rw [Path.fileName?_below, Path.fileName?_below] at names
          exact apart (EntryName.text_inj (Option.some.inj names))
        · refine (List.mergeSort_perm _ _).mem_iff.trans ?_
          constructor
          · intro member
            obtain ⟨⟨name, node⟩, among, rfl⟩ := List.mem_map.mp member
            obtain ⟨inside, kept⟩ := List.mem_filter.mp among
            obtain ⟨file, named⟩ := (Bool.and_eq_true _ _).mp kept
            cases node with
            | directory => cases file
            | file bytes =>
              exact ⟨place, name, bytes, found, mem_children_iff.mp inside, named, rfl⟩
          · rintro ⟨home, name, bytes, there, held, named, rfl⟩
            rw [found] at there
            cases there
            refine List.mem_map.mpr ⟨(name, .file bytes), List.mem_filter.mpr
              ⟨mem_children_iff.mpr held, ?_⟩, rfl⟩
            exact (Bool.and_eq_true _ _).mpr ⟨rfl, named⟩
  constructor
  · intro other
    exact Path.ordered_ext other.ordered lists.ordered fun configPath =>
      (other.exact configPath).trans (lists.exact configPath).symm
  · rintro rfl
    exact lists

/-! ## Part 3 — the entries of a config -/

/-- **An entry names a shader**: its vertex path has that file name, or else its fragment path;
`sibling` is the other path. -/
inductive ConfigEntry.Hits (entry : ConfigEntry) (fileName : String) : String → Prop
  | vertex (named : baseName? entry.vertex = some fileName) : Hits entry fileName entry.fragment
  | fragment (other : baseName? entry.vertex ≠ some fileName)
      (named : baseName? entry.fragment = some fileName) : Hits entry fileName entry.vertex

theorem ConfigEntry.hits_iff {sibling : String} : entry.Hits fileName sibling ↔
    (entry.matching? fileName).map Prod.snd = some sibling := by
  unfold matching?
  constructor
  · rintro (named | ⟨other, named⟩)
    · rw [if_pos named]
      rfl
    · rw [if_neg other, if_pos named]
      rfl
  · intro found
    split at found
    · next named =>
      cases found
      exact .vertex named
    · next other =>
      split at found
      · next named =>
        cases found
        exact .fragment other named
      · cases found

theorem ConfigEntry.no_hits_iff : (∀ sibling, ¬ entry.Hits fileName sibling) ↔
    (entry.matching? fileName).map Prod.snd = none := by
  simp only [hits_iff, Option.eq_none_iff_forall_ne_some, ne_eq]

/-- What the search makes of an entry. -/
theorem ConfigEntry.matching?_map (entry : ConfigEntry) (fileName : String) :
    ((entry.matching? fileName).map fun (_, sibling) => (entry, sibling)) =
      ((entry.matching? fileName).map Prod.snd).map (Prod.mk entry) := by
  rw [Option.map_map]
  rfl

/-- **The entry that is found** is the first one that names the shader. -/
theorem entryFor?_eq_some_iff {sibling : String} :
    entryFor? config fileName = some (entry, sibling) ↔
      ∃ before after, config.entries = before ++ entry :: after ∧
        (∀ other ∈ before, ∀ sibling, ¬ other.Hits fileName sibling) ∧
        entry.Hits fileName sibling := by
  rw [entryFor?, List.findSome?_eq_some_iff]
  constructor
  · rintro ⟨before, other, after, shape, found, nothing⟩
    rw [ConfigEntry.matching?_map, Option.map_eq_some_iff] at found
    obtain ⟨_, hits, same⟩ := found
    cases same
    refine ⟨before, after, shape, fun earlier among => ?_, ConfigEntry.hits_iff.mpr hits⟩
    have passed := nothing earlier among
    rw [ConfigEntry.matching?_map, Option.map_eq_none_iff] at passed
    exact ConfigEntry.no_hits_iff.mpr passed
  · rintro ⟨before, after, shape, nothing, hits⟩
    refine ⟨before, entry, after, shape, ?_, fun earlier among => ?_⟩
    · rw [ConfigEntry.matching?_map, ConfigEntry.hits_iff.mp hits]
      rfl
    · rw [ConfigEntry.matching?_map, ConfigEntry.no_hits_iff.mp (nothing earlier among)]
      rfl

theorem entryFor?_eq_none_iff : entryFor? config fileName = none ↔
    ∀ entry ∈ config.entries, ∀ sibling, ¬ entry.Hits fileName sibling := by
  rw [entryFor?, List.findSome?_eq_none_iff]
  refine forall₂_congr fun entry _ => ?_
  rw [ConfigEntry.matching?_map, Option.map_eq_none_iff, ConfigEntry.no_hits_iff]

/-! ## Part 4 — the first hit -/

/-- **No hit in a config**: it cannot be loaded, or none of its entries names the shader. -/
def NoHitIn (world : World) (fileName : String) (configPath : Path) : Prop :=
  ∀ config, ConfigFile.load world configPath = .ok config →
    ∀ entry ∈ config.entries, ∀ sibling, ¬ entry.Hits fileName sibling

/-- **The first hit of the search.** -/
structure FirstHit (world : World) (shader : Path) (fileName : String) (target : ShaderTarget) :
    Prop where
  directory : ∃ nearer farther, shader.Climbs (nearer ++ target.root :: farther) ∧
    ∀ other ∈ nearer, ∀ configPath, IsConfigIn world other configPath →
      NoHitIn world fileName configPath
  config : ∃ earlier later, ListsConfigs world target.root (earlier ++ target.configPath :: later) ∧
    ∀ other ∈ earlier, NoHitIn world fileName other
  loaded : ConfigFile.load world target.configPath = .ok target.config
  entry : ∃ before after sibling, target.config.entries = before ++ target.entry :: after ∧
    (∀ other ∈ before, ∀ sibling, ¬ other.Hits fileName sibling) ∧
    target.entry.Hits fileName sibling ∧ target.companion = target.root.join ⟨sibling⟩
  shader : target.shader = shader

/-- What the search makes of one config. -/
def ownerIn? (world : World) (shader directory : Path) (fileName : String) (configPath : Path) :
    Option ShaderTarget :=
  (ConfigFile.load world configPath).toOption.bind fun config =>
    (entryFor? config fileName).map fun (entry, sibling) =>
      { root := directory, shader, configPath, config, entry, companion := directory.below sibling }

theorem ownerAmong?_eq (configs : List Path) :
    ownerAmong? world shader directory fileName configs =
      configs.findSome? (ownerIn? world shader directory fileName) := by
  unfold ownerAmong?
  congr 1
  funext configPath
  unfold ownerIn?
  cases ConfigFile.load world configPath with
  | error error => rfl
  | ok config =>
    show (entryFor? config fileName).bind _ = (entryFor? config fileName).map _
    cases entryFor? config fileName <;> rfl

theorem ownerIn?_eq_none_iff {configPath : Path} :
    ownerIn? world shader directory fileName configPath = none ↔
      NoHitIn world fileName configPath := by
  unfold ownerIn? NoHitIn
  cases ConfigFile.load world configPath with
  | error error => exact iff_of_true rfl fun _ loaded => nomatch loaded
  | ok config =>
    show Option.map _ _ = none ↔ _
    rw [Option.map_eq_none_iff, entryFor?_eq_none_iff]
    refine ⟨?_, fun nothing => nothing config rfl⟩
    rintro nothing _ ⟨⟩
    exact nothing

theorem ownerIn?_eq_some_iff {configPath : Path} :
    ownerIn? world shader directory fileName configPath = some target ↔
      target.root = directory ∧ target.configPath = configPath ∧ target.shader = shader ∧
        ConfigFile.load world configPath = .ok target.config ∧
        ∃ sibling, entryFor? target.config fileName = some (target.entry, sibling) ∧
          target.companion = directory.below sibling := by
  unfold ownerIn?
  cases loaded : ConfigFile.load world configPath with
  | error error =>
    constructor
    · intro found
      cases found
    · rintro ⟨-, -, -, same, -⟩
      cases same
  | ok config =>
    show Option.map _ _ = some target ↔ _
    rw [Option.map_eq_some_iff]
    constructor
    · rintro ⟨⟨entry, sibling⟩, found, rfl⟩
      exact ⟨rfl, rfl, rfl, rfl, sibling, found, rfl⟩
    · rintro ⟨rfl, rfl, rfl, same, sibling, found, companion⟩
      cases same
      refine ⟨_, found, ?_⟩
      dsimp only
      rw [← companion]

/-- Nothing is found in a directory exactly if none of its configs has a hit. -/
theorem ownerAmong?_eq_none_iff :
    ownerAmong? world shader directory fileName (immediateConfigs world directory) = none ↔
      ∀ configPath, IsConfigIn world directory configPath → NoHitIn world fileName configPath := by
  have lists := listsConfigs_iff.mpr (rfl : immediateConfigs world directory = _)
  rw [ownerAmong?_eq, List.findSome?_eq_none_iff]
  exact forall_congr' fun configPath => imp_congr (lists.exact configPath) ownerIn?_eq_none_iff

/-- **What is found in a directory** is in the first of its configs that has a hit. -/
theorem ownerAmong?_eq_some_iff :
    ownerAmong? world shader directory fileName (immediateConfigs world directory) =
        some target ↔
      ∃ earlier configPath later,
        ListsConfigs world directory (earlier ++ configPath :: later) ∧
        ownerIn? world shader directory fileName configPath = some target ∧
        ∀ other ∈ earlier, NoHitIn world fileName other := by
  rw [ownerAmong?_eq, List.findSome?_eq_some_iff]
  refine exists_congr fun earlier => exists_congr fun configPath => exists_congr fun later => ?_
  rw [listsConfigs_iff, eq_comm]
  exact and_congr_right fun _ => and_congr_right fun _ =>
    forall₂_congr fun other _ => ownerIn?_eq_none_iff

/-- **The owner of a shader is the first hit of the search**, and there is none exactly if the
search has no hit. -/
theorem owner?_exact (named : shader.fileName? = some fileName) :
    ∃ owner, owner? world shader = .ok owner ∧
      (∀ target, owner = some target ↔ FirstHit world shader fileName target) ∧
      (owner = none ↔ ∀ directories, shader.Climbs directories → ∀ directory ∈ directories,
        ∀ configPath, IsConfigIn world directory configPath →
          NoHitIn world fileName configPath) := by
  refine ⟨_, by rw [owner?, named]; rfl, fun target => ?_, ?_⟩
  · rw [List.findSome?_eq_some_iff]
    constructor
    · rintro ⟨nearer, directory, farther, shape, found, nothing⟩
      obtain ⟨earlier, configPath, later, lists, held, passed⟩ := ownerAmong?_eq_some_iff.mp found
      obtain ⟨rfl, rfl, same, loaded, sibling, entry, companion⟩ := ownerIn?_eq_some_iff.mp held
      obtain ⟨before, after, entries, silent, hits⟩ := entryFor?_eq_some_iff.mp entry
      exact ⟨⟨nearer, farther, Path.climbs_iff.mpr shape.symm, fun other among =>
        ownerAmong?_eq_none_iff.mp (nothing other among)⟩, ⟨earlier, later, lists, passed⟩, loaded,
        ⟨before, after, sibling, entries, silent, hits, companion⟩, same⟩
    · intro first
      obtain ⟨nearer, farther, climbs, nothing⟩ := first.directory
      obtain ⟨earlier, later, lists, passed⟩ := first.config
      obtain ⟨before, after, sibling, entries, silent, hits, companion⟩ := first.entry
      refine ⟨nearer, target.root, farther, (Path.climbs_iff.mp climbs).symm,
        ownerAmong?_eq_some_iff.mpr ⟨earlier, _, later, lists, ?_, passed⟩, fun other among =>
          ownerAmong?_eq_none_iff.mpr (nothing other among)⟩
      exact ownerIn?_eq_some_iff.mpr ⟨rfl, rfl, first.shader, first.loaded, sibling,
        entryFor?_eq_some_iff.mpr ⟨before, after, entries, silent, hits⟩, companion⟩
  · rw [List.findSome?_eq_none_iff]
    constructor
    · intro nothing directories climbs directory among
      rw [Path.climbs_iff.mp climbs] at among
      exact ownerAmong?_eq_none_iff.mp (nothing directory among)
    · intro nothing directory among
      exact ownerAmong?_eq_none_iff.mpr
        (nothing _ (Path.climbs_owningDirectories shader) directory among)

/-! ## Part 5 — several candidates -/

/-- A world with a config that is no config, and two that name a shader below them. -/
def rivalWorld : World :=
  World.ofNodes [] [([⟨"kit", rfl⟩], .directory),
    ([⟨"c.sl.json", by decide⟩, ⟨"kit", rfl⟩], .file commonText.toUTF8),
    ([⟨"b.sl.json", by decide⟩, ⟨"kit", rfl⟩], .file commonText.toUTF8),
    ([⟨"a.sl.json", by decide⟩, ⟨"kit", rfl⟩], .file "\x7b".toUTF8),
    ([⟨"parts", rfl⟩, ⟨"kit", rfl⟩], .directory),
    ([⟨"mage.vert", rfl⟩, ⟨"parts", rfl⟩, ⟨"kit", rfl⟩], .file ⟨#[]⟩)]
    (by decide) (by decide)

/-- The first config is passed over, and the second one wins. -/
theorem owner?_exact_rivals :
    owner? rivalWorld ⟨"/kit/parts/mage.vert"⟩ =
      .ok (some ⟨⟨"/kit"⟩, ⟨"/kit/parts/mage.vert"⟩, ⟨"/kit/b.sl.json"⟩,
        ⟨none, none, [commonEntry], []⟩, commonEntry, ⟨"/kit/mage.frag"⟩⟩) := by
  have none : ListsConfigs rivalWorld ⟨"/kit/parts"⟩ [] := listsConfigs_iff.mpr (by decide +kernel)
  have three : ListsConfigs rivalWorld ⟨"/kit"⟩
      [⟨"/kit/a.sl.json"⟩, ⟨"/kit/b.sl.json"⟩, ⟨"/kit/c.sl.json"⟩] := by
    have unsorted : immediateConfigs rivalWorld ⟨"/kit"⟩ =
        Path.inOrder [⟨"/kit/c.sl.json"⟩, ⟨"/kit/b.sl.json"⟩, ⟨"/kit/a.sl.json"⟩] := by rfl
    rw [listsConfigs_iff, unsorted]
    refine Path.ordered_ext (by decide +kernel) (Path.inOrder_strict (by decide +kernel))
      fun path => List.Perm.mem_iff ?_
    exact List.Perm.trans (by decide +kernel) (List.mergeSort_perm _ _).symm
  have broken : (ConfigFile.load rivalWorld ⟨"/kit/a.sl.json"⟩).toOption.isNone = true := by
    decide +kernel
  have first : FirstHit rivalWorld ⟨"/kit/parts/mage.vert"⟩ "mage.vert" ⟨⟨"/kit"⟩,
      ⟨"/kit/parts/mage.vert"⟩, ⟨"/kit/b.sl.json"⟩, ⟨Option.none, Option.none, [commonEntry], []⟩,
      commonEntry, ⟨"/kit/mage.frag"⟩⟩ := {
    directory := by
      refine ⟨[⟨"/kit/parts"⟩], [⟨"/"⟩], Path.climbs_iff.mpr (by decide +kernel), ?_⟩
      intro other among configPath inside
      rw [List.mem_singleton.mp among] at inside
      exact absurd ((none.exact configPath).mpr inside) List.not_mem_nil
    config := by
      refine ⟨[⟨"/kit/a.sl.json"⟩], [⟨"/kit/c.sl.json"⟩], three, ?_⟩
      intro other among config loaded
      rw [List.mem_singleton.mp among] at loaded
      rw [loaded] at broken
      cases broken
    loaded := ConfigFile.load_eq_ok.mpr
      ⟨_, commonText, by rfl, dif_pos commonText.isValidUTF8, by rfl⟩
    entry := ⟨[], [], "mage.frag", rfl, fun _ among => absurd among List.not_mem_nil,
      .vertex (by decide +kernel), by decide +kernel⟩
    shader := rfl }
  obtain ⟨owner, found, hits, -⟩ :=
    @owner?_exact rivalWorld ⟨"/kit/parts/mage.vert"⟩ "mage.vert" (by decide +kernel)
  rw [found, (hits _).mpr first]

end ShaderForge

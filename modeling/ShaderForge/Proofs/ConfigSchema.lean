/-
**The schema of a config.**

A config is an object with a list under `data`; its namespace and its output format may be absent
or null, and are text otherwise. Each item of the list is an object with text under `vsh` and `fsh`,
and with three more fields that may be absent or null (`ConfigEntry.Schema`, `ConfigFile.Schema`).
The entries are those items in their order, and whatever else is in an object is kept as it is
(`ConfigEntry.Shows`, `ConfigFile.Shows`).

`ConfigFile.parse_exact`: a text is parsed exactly if it is a document of such an object, the config
is what that object shows, and any other text is refused in the name of the file that it is from.
-/

import ShaderForge.JobError
import ShaderForge.Proofs.JsonDocuments
import ShaderForge.Proofs.Resolved

namespace ShaderForge

variable {fields : List (String × Json)} {name : String} {found : Option Json}

/-! ## Part 1 — fields -/

/-- **Text that may be absent or null**, and what it comes to. -/
inductive ShowsText : Option Json → Option String → Prop
  | absent : ShowsText none none
  | null : ShowsText (some .null) none
  | text {content : String} : ShowsText (some (.text content)) (some content)

/-- A field that is absent, null or text. -/
def MayBeText (found : Option Json) : Prop :=
  found = none ∨ found = some .null ∨ ∃ content, found = some (.text content)

theorem mayBeText_iff : MayBeText found ↔ ∃ content, ShowsText found content := by
  constructor
  · rintro (rfl | rfl | ⟨content, rfl⟩)
    · exact ⟨_, .absent⟩
    · exact ⟨_, .null⟩
    · exact ⟨_, .text⟩
  · rintro ⟨content, ⟨⟩⟩
    · exact .inl rfl
    · exact .inr (.inl rfl)
    · exact .inr (.inr ⟨_, rfl⟩)

/-- **A field that may be absent is read exactly if it is absent, null or text.** -/
theorem optionalText_eq_ok {content : Option String} :
    optionalText fields name = .ok content ↔ ShowsText (fields.lookup name) content := by
  unfold optionalText
  constructor
  · intro given
    split at given
    · next missing =>
      cases given
      exact missing ▸ .absent
    · next null =>
      cases given
      exact null ▸ .null
    · next text =>
      cases given
      exact text ▸ .text
    · cases given
  · intro shows
    generalize fields.lookup name = found at shows
    cases shows <;> rfl

/-- A field that must be text is read exactly if it is. -/
theorem presentText_eq_ok {content : String} :
    presentText fields name = .ok (some content) ↔
      fields.lookup name = some (.text content) := by
  unfold presentText
  constructor
  · intro given
    split at given
    · cases given
    · next text =>
      cases given
      exact text
    · cases given
  · intro text
    rw [text]
    rfl

theorem required_eq_ok {text : Option String} {content : String} :
    required name text = .ok content ↔ text = some content := by
  cases text with
  | none => exact ⟨nofun, nofun⟩
  | some text => exact ⟨fun given => by cases given; rfl, fun same => by cases same; rfl⟩

/-- The fields that are not known are those with other names, in whatever order the known ones are
listed. -/
theorem unknownFields_eq {known names : List String} (same : known.Perm names) :
    unknownFields known fields = fields.filter fun field => field.1 ∉ names := by
  refine List.filter_congr fun field _ => ?_
  rw [Bool.eq_iff_iff, Bool.not_eq_true', ← Bool.not_eq_true, List.contains_iff_mem,
    decide_eq_true_eq, same.mem_iff]

/-! ## Part 2 — entries -/

/-- **The object of an entry**: text under `vsh` and `fsh`, and three fields that may be absent. -/
structure ConfigEntry.Schema (fields : List (String × Json)) : Prop where
  vertex : ∃ content, fields.lookup "vsh" = some (.text content)
  fragment : ∃ content, fields.lookup "fsh" = some (.text content)
  fileName : MayBeText (fields.lookup "fileName")
  className : MayBeText (fields.lookup "className")
  stage : MayBeText (fields.lookup "stage")

/-- **What an entry is of its object**: its known fields, and all other ones as they are. -/
structure ConfigEntry.Shows (entry : ConfigEntry) (fields : List (String × Json)) : Prop where
  vertex : fields.lookup "vsh" = some (.text entry.vertex)
  fragment : fields.lookup "fsh" = some (.text entry.fragment)
  fileName : ShowsText (fields.lookup "fileName") entry.fileName
  className : ShowsText (fields.lookup "className") entry.className
  stage : ShowsText (fields.lookup "stage") entry.stage
  extra : entry.extra = fields.filter fun field =>
    field.1 ∉ ["vsh", "fsh", "fileName", "className", "stage"]

/-- **What an entry is of an item of a list**, which is an object. -/
def ConfigEntry.ShownBy (item : Json) (entry : ConfigEntry) : Prop :=
  ∃ fields, item = .object fields ∧ entry.Shows fields

namespace ConfigEntry

variable {entry : ConfigEntry} {entries : List ConfigEntry} {items : List Json}

theorem schema_iff : Schema fields ↔ ∃ entry : ConfigEntry, entry.Shows fields := by
  constructor
  · rintro ⟨⟨vertex, vsh⟩, ⟨fragment, fsh⟩, fileName, className, stage⟩
    obtain ⟨fileName, named⟩ := mayBeText_iff.mp fileName
    obtain ⟨className, classed⟩ := mayBeText_iff.mp className
    obtain ⟨stage, staged⟩ := mayBeText_iff.mp stage
    exact ⟨⟨fileName, className, vertex, fragment, stage, _⟩, vsh, fsh, named, classed, staged,
      rfl⟩
  · rintro ⟨entry, shows⟩
    exact ⟨⟨_, shows.vertex⟩, ⟨_, shows.fragment⟩, mayBeText_iff.mpr ⟨_, shows.fileName⟩,
      mayBeText_iff.mpr ⟨_, shows.className⟩, mayBeText_iff.mpr ⟨_, shows.stage⟩⟩

/-- **An entry is read from the objects that show it**, and from nothing else. -/
theorem ofJson_eq_ok {value : Json} :
    ofJson value = .ok entry ↔ ShownBy value entry := by
  constructor
  · intro given
    unfold ofJson at given
    split at given
    · next fields =>
      obtain ⟨className, classed, given⟩ := except_bind_ok given
      obtain ⟨fileName, named, given⟩ := except_bind_ok given
      obtain ⟨fragment?, fsh, given⟩ := except_bind_ok given
      obtain ⟨stage, staged, given⟩ := except_bind_ok given
      obtain ⟨vertex?, vsh, given⟩ := except_bind_ok given
      obtain ⟨vertex, some_vertex, given⟩ := except_bind_ok given
      obtain ⟨fragment, some_fragment, given⟩ := except_bind_ok given
      cases given
      rw [required_eq_ok] at some_vertex some_fragment
      rw [some_vertex, presentText_eq_ok] at vsh
      rw [some_fragment, presentText_eq_ok] at fsh
      exact ⟨fields, rfl, vsh, fsh, optionalText_eq_ok.mp named, optionalText_eq_ok.mp classed,
        optionalText_eq_ok.mp staged, unknownFields_eq (by decide)⟩
    · cases given
  · rintro ⟨fields, rfl, shows⟩
    have extra : unknownFields knownFields fields = entry.extra :=
      (unknownFields_eq (by decide)).trans shows.extra.symm
    rw [ofJson, optionalText_eq_ok.mpr shows.className, optionalText_eq_ok.mpr shows.fileName,
      presentText_eq_ok.mpr shows.fragment, optionalText_eq_ok.mpr shows.stage,
      presentText_eq_ok.mpr shows.vertex, extra]
    rfl

/-- **The entries of a list are read from its items**, one from each. -/
theorem listOfJson_eq_ok :
    listOfJson items = .ok entries ↔ List.Forall₂ ShownBy items entries := by
  induction items generalizing entries with
  | nil =>
    rw [List.forall₂_nil_left_iff]
    exact ⟨fun given => by cases given; rfl, fun none => by rw [none]; rfl⟩
  | cons item items ih =>
    rw [List.forall₂_cons_left_iff]
    constructor
    · intro given
      obtain ⟨first, read, given⟩ := except_bind_ok given
      obtain ⟨others, later, given⟩ := except_bind_ok given
      cases given
      exact ⟨first, others, ofJson_eq_ok.mp read, ih.mp later, rfl⟩
    · rintro ⟨first, others, read, later, rfl⟩
      rw [listOfJson, ofJson_eq_ok.mpr read, ih.mpr later]
      rfl

end ConfigEntry

/-! ## Part 3 — configs -/

/-- **The object of a config**: a list of the objects of entries under `data`, and two fields that
may be absent. -/
structure ConfigFile.Schema (fields : List (String × Json)) : Prop where
  data : ∃ items, fields.lookup "data" = some (.list items) ∧
    ∀ item ∈ items, ∃ inner, item = .object inner ∧ ConfigEntry.Schema inner
  space : MayBeText (fields.lookup "namespace")
  outputFormat : MayBeText (fields.lookup "outputFormat")

/-- **What a config is of its object**: an entry for each item of the list in their order, its two
other known fields, and all other ones as they are. -/
structure ConfigFile.Shows (config : ConfigFile) (fields : List (String × Json)) : Prop where
  data : ∃ items, fields.lookup "data" = some (.list items) ∧
    List.Forall₂ ConfigEntry.ShownBy items config.entries
  space : ShowsText (fields.lookup "namespace") config.space
  outputFormat : ShowsText (fields.lookup "outputFormat") config.outputFormat
  extra : config.extra = fields.filter fun field =>
    field.1 ∉ ["namespace", "outputFormat", "data"]

namespace ConfigFile

variable {config : ConfigFile}

/-- Each item of a list has a counterpart exactly if there is a list of counterparts. -/
theorem forall_exists_iff {α β : Type} {fits : α → β → Prop} {items : List α} :
    (∀ item ∈ items, ∃ other, fits item other) ↔ ∃ others, List.Forall₂ fits items others := by
  induction items with
  | nil => exact ⟨fun _ => ⟨[], .nil⟩, fun _ _ member => absurd member List.not_mem_nil⟩
  | cons item items ih =>
    rw [List.forall_mem_cons, ih]
    constructor
    · rintro ⟨⟨first, fits⟩, others, all⟩
      exact ⟨first :: others, .cons fits all⟩
    · rintro ⟨_, all⟩
      cases all with
      | cons first later => exact ⟨⟨_, first⟩, _, later⟩

/-- The items of a list are objects of entries exactly if there are entries of them. -/
theorem items_iff {items : List Json} :
    (∀ item ∈ items, ∃ inner, item = .object inner ∧ ConfigEntry.Schema inner) ↔
      ∃ entries, List.Forall₂ ConfigEntry.ShownBy items entries := by
  rw [← forall_exists_iff]
  refine forall₂_congr fun item _ => ?_
  constructor
  · rintro ⟨inner, same, schema⟩
    obtain ⟨entry, shows⟩ := ConfigEntry.schema_iff.mp schema
    exact ⟨entry, inner, same, shows⟩
  · rintro ⟨entry, inner, same, shows⟩
    exact ⟨inner, same, ConfigEntry.schema_iff.mpr ⟨entry, shows⟩⟩

theorem schema_iff : Schema fields ↔ ∃ config : ConfigFile, config.Shows fields := by
  constructor
  · rintro ⟨⟨items, list, all⟩, space, outputFormat⟩
    obtain ⟨entries, shown⟩ := items_iff.mp all
    obtain ⟨space, spaced⟩ := mayBeText_iff.mp space
    obtain ⟨outputFormat, formatted⟩ := mayBeText_iff.mp outputFormat
    exact ⟨⟨space, outputFormat, entries, _⟩, ⟨items, list, shown⟩, spaced, formatted, rfl⟩
  · rintro ⟨config, ⟨items, list, shown⟩, spaced, formatted, -⟩
    exact ⟨⟨items, list, items_iff.mpr ⟨_, shown⟩⟩, mayBeText_iff.mpr ⟨_, spaced⟩,
      mayBeText_iff.mpr ⟨_, formatted⟩⟩

/-- **A config is read from the objects that show it**, and from nothing else. -/
theorem ofJson_eq_ok {value : Json} :
    ofJson value = .ok config ↔ ∃ fields, value = .object fields ∧ config.Shows fields := by
  constructor
  · intro given
    unfold ofJson at given
    split at given
    · next fields =>
      split at given
      · next items list =>
        obtain ⟨entries, read, given⟩ := except_bind_ok given
        obtain ⟨space, spaced, given⟩ := except_bind_ok given
        obtain ⟨outputFormat, formatted, given⟩ := except_bind_ok given
        cases given
        exact ⟨fields, rfl, ⟨items, list, ConfigEntry.listOfJson_eq_ok.mp read⟩,
          optionalText_eq_ok.mp spaced, optionalText_eq_ok.mp formatted,
          unknownFields_eq (by decide)⟩
      · cases given
    · cases given
  · rintro ⟨fields, rfl, ⟨items, list, shown⟩, spaced, formatted, others⟩
    have extra : unknownFields knownFields fields = config.extra :=
      (unknownFields_eq (by decide)).trans others.symm
    simp only [ofJson]
    rw [list]
    dsimp only
    rw [ConfigEntry.listOfJson_eq_ok.mpr shown, optionalText_eq_ok.mpr spaced,
      optionalText_eq_ok.mpr formatted, extra]
    rfl

/-- **A config is parsed from the documents of the objects that show it**, and from nothing else. -/
theorem parse_eq_ok {text : String} :
    parse text = .ok config ↔
      ∃ fields, Json.Document text (.object fields) ∧ config.Shows fields := by
  simp only [← Json.read_iff]
  unfold parse
  cases Json.read text with
  | none => exact ⟨nofun, nofun⟩
  | some value =>
    rw [ofJson_eq_ok]
    exact exists_congr fun fields => and_congr_left' (Option.some.injEq _ _ ▸ Iff.rfl)

/-- **A config is parsed exactly if its text has its schema.** The text is a document of an object
with a list of the objects of entries; the config that comes of it is what the object shows, with
the entries in the order of the list and all fields that are not known. Any other text is refused,
and the error names the file that the text is from. -/
theorem parse_exact (text : String) (origin : Path) :
    let result := (parse text).mapError (JobError.invalidConfig origin)
    (∀ config, result = .ok config ↔
      ∃ fields, Json.Document text (.object fields) ∧ config.Shows fields) ∧
    ((∃ config, result = .ok config) ↔
      ∃ fields, Json.Document text (.object fields) ∧ Schema fields) ∧
    ((∃ config, result = .ok config) ∨ ∃ fault, result = .error (.invalidConfig origin fault)) := by
  intro result
  have parsed : ∀ config, result = .ok config ↔
      ∃ fields, Json.Document text (.object fields) ∧ config.Shows fields := by
    intro config
    rw [← parse_eq_ok]
    show (parse text).mapError _ = _ ↔ _
    cases parse text with
    | ok other => exact ⟨fun same => congrArg _ (Except.ok.inj same),
        fun same => congrArg _ (Except.ok.inj same)⟩
    | error fault => exact ⟨nofun, nofun⟩
  refine ⟨parsed, ?_, ?_⟩
  · simp only [parsed, schema_iff]
    exact ⟨fun ⟨config, fields, document, shows⟩ => ⟨fields, document, config, shows⟩,
      fun ⟨fields, document, config, shows⟩ => ⟨config, fields, document, shows⟩⟩
  · show (∃ config, (parse text).mapError _ = .ok config) ∨ ∃ fault, (parse text).mapError _ = _
    cases parse text with
    | ok config => exact .inl ⟨config, rfl⟩
    | error fault => exact .inr ⟨fault, rfl⟩

end ConfigFile

end ShaderForge

/-
**A config is read back from its own text.**

A config is read from the fields of an object: the ones it knows, each into its place, and all other
ones as they are. Written anew, it has its known fields first and the others after them, while a
document is read with its fields in the order of their names. Fields that are not known, in order
and with values that are read back, are *retained* by this (`Retained`); a config that retains the
fields at its top and in every entry is read back as it was (`ConfigFile.parse_render`).

Whatever was read from a text does so, if the floating point numbers in it are read back
(`ConfigFile.retains_of_parse`). So writing a config anew loses nothing
(`ConfigFile.parse_render_of_parse`), also with its paths changed
(`ConfigFile.parse_render_mapPaths`).
-/

import ShaderForge.Proofs.ConfigSchema
import ShaderForge.Proofs.JsonReadback

namespace ShaderForge

open Json (Echoes FieldEchoes HasReal Ordered Readable ReadsBack gather)

/-! ## Part 1 — fields that are not known -/

/-- **Fields that are kept beside known ones**: in order, under other names, and with values that
are read back. -/
structure Retained (depth : Nat) (known : List String) (extra : List (String × Json)) : Prop where
  ordered : Ordered extra
  unknown : ∀ field ∈ extra, field.1 ∉ known
  echoes : ∀ field ∈ extra, Echoes depth field.2 field.2

theorem mem_unknownFields {known : List String} {fields : List (String × Json)}
    {field : String × Json} :
    field ∈ unknownFields known fields ↔ field ∈ fields ∧ field.1 ∉ known := by
  rw [unknownFields, List.mem_filter, Bool.not_eq_true', ← Bool.not_eq_true, List.contains_iff_mem]

/-- **What was read with fields in order retains those that are not known.** -/
theorem retained_unknownFields {depth : Nat} {known : List String} {fields : List (String × Json)}
    (ordered : Ordered fields) (all : ∀ field ∈ fields, Readable depth field.2)
    (back : ∀ field ∈ unknownFields known fields, ∀ real, HasReal real field.2 → ReadsBack real) :
    Retained depth known (unknownFields known fields) where
  ordered := ordered.filter _
  unknown _ member := (mem_unknownFields.mp member).2
  echoes field member := (all field (mem_unknownFields.mp member).1).echoes (back field member)

namespace Retained

variable {depth : Nat} {known : List String} {own extra : List (String × Json)}
  (retained : Retained depth known extra) (among : ∀ field ∈ own, field.1 ∈ known)
  (distinct : own.Pairwise fun left right => left.1 ≠ right.1)

include retained

theorem lookup_eq_none {key : String} (is_known : key ∈ known) : extra.lookup key = none :=
  List.lookup_eq_none_iff.mpr fun field member => bne_iff_ne.mpr fun same =>
    retained.unknown field member (same ▸ is_known)

include among distinct

theorem distinct_append : (own ++ extra).Pairwise fun left right => left.1 ≠ right.1 := by
  refine List.pairwise_append.mpr ⟨distinct, retained.ordered.distinct, ?_⟩
  intro left there right also same
  exact retained.unknown right also (same ▸ among left there)

/-- A known field is found among the known ones. -/
theorem lookup_gather {key : String} (is_known : key ∈ known) :
    (gather (own ++ extra)).lookup key = own.lookup key := by
  rw [Json.lookup_gather (retained.distinct_append among distinct), List.lookup_append,
    retained.lookup_eq_none is_known, Option.or_none]

/-- **The fields that are not known are the ones that were kept.** -/
theorem unknownFields_gather : unknownFields known (gather (own ++ extra)) = extra := by
  have whole := retained.distinct_append among distinct
  have members : ∀ field, field ∈ unknownFields known (gather (own ++ extra)) ↔ field ∈ extra := by
    intro field
    rw [mem_unknownFields, Json.mem_gather whole, List.mem_append]
    constructor
    · rintro ⟨inside | inside, other⟩
      · exact absurd (among _ inside) other
      · exact inside
    · exact fun inside => ⟨.inr inside, retained.unknown _ inside⟩
  exact Json.eq_of_mem_iff ((Json.ordered_gather _).filter _) retained.ordered members

end Retained

/-! ## Part 2 — writing and reading -/

theorem optionalText_ok {fields : List (String × Json)} {name : String} {content : Option String}
    (there : fields.lookup name = content.map Json.text) :
    optionalText fields name = .ok content := by
  rw [optionalText, there]
  cases content <;> rfl

/-- Fields that are read back as they are. -/
theorem fieldEchoes_same {depth : Nat} {fields : List (String × Json)}
    (all : ∀ field ∈ fields, Echoes depth field.2 field.2) :
    List.Forall₂ (FieldEchoes depth) fields fields :=
  List.forall₂_same.mpr fun field member => ⟨rfl, all field member⟩

namespace ConfigEntry

variable {entry : ConfigEntry} {depth : Nat}

/-- The known fields of an entry that are there. -/
def ownFields (entry : ConfigEntry) : List (String × Json) :=
  optionalField "fileName" entry.fileName ++ optionalField "className" entry.className
    ++ [("vsh", .text entry.vertex), ("fsh", .text entry.fragment)]
    ++ optionalField "stage" entry.stage

theorem ownFields_distinct (entry : ConfigEntry) :
    entry.ownFields.Pairwise fun left right => left.1 ≠ right.1 := by
  rcases entry with ⟨_ | fileName, _ | className, vertex, fragment, _ | stage, extra⟩ <;>
    simp [ownFields, optionalField]

theorem ownFields_known (entry : ConfigEntry) :
    ∀ field ∈ entry.ownFields, field.1 ∈ knownFields := by
  rcases entry with ⟨_ | fileName, _ | className, vertex, fragment, _ | stage, extra⟩ <;>
    simp [ownFields, optionalField, knownFields]

theorem ownFields_text (entry : ConfigEntry) :
    ∀ field ∈ entry.ownFields, ∃ content, field.2 = .text content := by
  rcases entry with ⟨_ | fileName, _ | className, vertex, fragment, _ | stage, extra⟩ <;>
    simp [ownFields, optionalField]

/-- **An entry is read from its fields**, in whatever order they come back. -/
theorem ofJson_gather (retained : Retained depth knownFields entry.extra) :
    ofJson (.object (gather (entry.ownFields ++ entry.extra))) = .ok entry := by
  have found : ∀ key ∈ knownFields,
      (gather (entry.ownFields ++ entry.extra)).lookup key = entry.ownFields.lookup key :=
    fun key => retained.lookup_gather entry.ownFields_known entry.ownFields_distinct
  have others := retained.unknownFields_gather entry.ownFields_known entry.ownFields_distinct
  have className : entry.ownFields.lookup "className" = entry.className.map .text := by
    rcases entry with ⟨_ | fileName, _ | className, vertex, fragment, _ | stage, extra⟩ <;> rfl
  have fileName : entry.ownFields.lookup "fileName" = entry.fileName.map .text := by
    rcases entry with ⟨_ | fileName, _ | className, vertex, fragment, _ | stage, extra⟩ <;> rfl
  have stage : entry.ownFields.lookup "stage" = entry.stage.map .text := by
    rcases entry with ⟨_ | fileName, _ | className, vertex, fragment, _ | stage, extra⟩ <;> rfl
  have vertex : entry.ownFields.lookup "vsh" = some (.text entry.vertex) := by
    rcases entry with ⟨_ | fileName, _ | className, vertex, fragment, _ | stage, extra⟩ <;> rfl
  have fragment : entry.ownFields.lookup "fsh" = some (.text entry.fragment) := by
    rcases entry with ⟨_ | fileName, _ | className, vertex, fragment, _ | stage, extra⟩ <;> rfl
  rw [ofJson, optionalText_ok ((found "className" (by decide)).trans className),
    optionalText_ok ((found "fileName" (by decide)).trans fileName),
    presentText_eq_ok.mpr ((found "fsh" (by decide)).trans fragment),
    optionalText_ok ((found "stage" (by decide)).trans stage),
    presentText_eq_ok.mpr ((found "vsh" (by decide)).trans vertex), others]
  rfl

/-- **An entry that is written is read back** with its fields in order. -/
theorem echoes (retained : Retained (depth + 1) knownFields entry.extra) :
    Echoes (depth + 2) entry.toJson (.object (gather (entry.ownFields ++ entry.extra))) := by
  have all : ∀ field ∈ entry.ownFields ++ entry.extra, Echoes (depth + 1) field.2 field.2 := by
    intro field member
    rcases List.mem_append.mp member with own | other
    · obtain ⟨content, text⟩ := entry.ownFields_text field own
      rw [text]
      exact Json.echoes_text depth content
    · exact retained.echoes field other
  exact Json.echoes_object (fieldEchoes_same all)

/-- The entries of a list are read in order. -/
theorem listOfJson_ok {entries : List ConfigEntry}
    (all : ∀ entry ∈ entries, Retained depth knownFields entry.extra) :
    listOfJson (entries.map fun entry => .object (gather (entry.ownFields ++ entry.extra))) =
      .ok entries := by
  induction entries with
  | nil => rfl
  | cons entry entries ih =>
    obtain ⟨first, others⟩ := List.forall_mem_cons.mp all
    rw [List.map_cons, listOfJson, ofJson_gather first, ih others]
    rfl

end ConfigEntry

namespace ConfigFile

variable {config : ConfigFile} {items : List Json}

/-- **A config whose fields that are not known are read back**, at the top and in every entry. -/
structure Retains (config : ConfigFile) : Prop where
  extra : Retained 127 knownFields config.extra
  entries : ∀ entry ∈ config.entries, Retained 125 ConfigEntry.knownFields entry.extra

/-- The known fields of a config that are there. -/
def ownFields (config : ConfigFile) (items : List Json) : List (String × Json) :=
  ConfigEntry.optionalField "namespace" config.space
    ++ ConfigEntry.optionalField "outputFormat" config.outputFormat ++ [("data", .list items)]

theorem ownFields_distinct (config : ConfigFile) (items : List Json) :
    (config.ownFields items).Pairwise fun left right => left.1 ≠ right.1 := by
  rcases config with ⟨_ | space, _ | format, entries, extra⟩ <;>
    simp [ownFields, ConfigEntry.optionalField]

theorem ownFields_known (config : ConfigFile) (items : List Json) :
    ∀ field ∈ config.ownFields items, field.1 ∈ knownFields := by
  rcases config with ⟨_ | space, _ | format, entries, extra⟩ <;>
    simp [ownFields, ConfigEntry.optionalField, knownFields]

/-- **A config is read from its fields**, in whatever order they come back. -/
theorem ofJson_gather {depth : Nat} (retained : Retained depth knownFields config.extra)
    (entries : ConfigEntry.listOfJson items = .ok config.entries) :
    ofJson (.object (gather (config.ownFields items ++ config.extra))) = .ok config := by
  have found : ∀ key ∈ knownFields, (gather (config.ownFields items ++ config.extra)).lookup key =
      (config.ownFields items).lookup key :=
    fun key => retained.lookup_gather (config.ownFields_known items)
      (config.ownFields_distinct items)
  have others := retained.unknownFields_gather (config.ownFields_known items)
    (config.ownFields_distinct items)
  have data : (config.ownFields items).lookup "data" = some (.list items) := by
    rcases config with ⟨_ | space, _ | format, entries, extra⟩ <;> rfl
  have space : (config.ownFields items).lookup "namespace" = config.space.map .text := by
    rcases config with ⟨_ | space, _ | format, entries, extra⟩ <;> rfl
  have format : (config.ownFields items).lookup "outputFormat" =
      config.outputFormat.map .text := by
    rcases config with ⟨_ | space, _ | format, entries, extra⟩ <;> rfl
  simp only [ofJson]
  rw [(found "data" (by decide)).trans data]
  dsimp only
  rw [entries, optionalText_ok ((found "namespace" (by decide)).trans space),
    optionalText_ok ((found "outputFormat" (by decide)).trans format), others]
  rfl

/-- **A config that is written is read back** with its fields in order. -/
theorem echoes (retains : config.Retains) :
    Echoes Json.depthBound config.toJson (.object (gather (config.ownFields
      (config.entries.map fun entry => .object (gather (entry.ownFields ++ entry.extra)))
        ++ config.extra))) := by
  have items : List.Forall₂ (Echoes 126) (config.entries.map ConfigEntry.toJson)
      (config.entries.map fun entry => .object (gather (entry.ownFields ++ entry.extra))) := by
    rw [List.forall₂_map_left_iff, List.forall₂_map_right_iff]
    exact List.forall₂_same.mpr fun entry member =>
      ConfigEntry.echoes (retains.entries entry member)
  have optional : ∀ (name : String) (content : Option String), List.Forall₂ (FieldEchoes 127)
      (ConfigEntry.optionalField name content) (ConfigEntry.optionalField name content) := by
    intro name content
    refine fieldEchoes_same fun field member => ?_
    cases content with
    | none => exact absurd member List.not_mem_nil
    | some content =>
      rw [List.mem_singleton.mp member]
      exact Json.echoes_text _ content
  have data : List.Forall₂ (FieldEchoes 127)
      [("data", .list (config.entries.map ConfigEntry.toJson))]
      [("data", .list (config.entries.map fun entry =>
        .object (gather (entry.ownFields ++ entry.extra))))] :=
    .cons ⟨rfl, Json.echoes_list items⟩ .nil
  exact Json.echoes_object (List.rel_append (List.rel_append (List.rel_append
    (optional _ config.space) (optional _ config.outputFormat)) data)
      (fieldEchoes_same retains.extra.echoes))

/-- **A config that is written is the config that is read.** -/
theorem parse_render (retains : config.Retains) : parse config.render = .ok config := by
  rw [parse, render, Json.read_render (echoes retains)]
  exact ofJson_gather retains.extra (ConfigEntry.listOfJson_ok retains.entries)

/-- Its paths may be changed. -/
theorem Retains.mapPaths (retains : config.Retains) (change : String → String) :
    Retains { config with entries := config.entries.map (ConfigEntry.mapPaths change) } where
  extra := retains.extra
  entries entry member := by
    obtain ⟨before, among, rfl⟩ := List.mem_map.mp member
    exact retains.entries before among

end ConfigFile

/-! ## Part 3 — what was read -/

/-- An entry is read from an object. -/
theorem ConfigEntry.ofJson_ok {value : Json} {entry : ConfigEntry}
    (given : ofJson value = .ok entry) :
    ∃ fields, value = .object fields ∧ entry.extra = unknownFields knownFields fields := by
  obtain ⟨fields, same, shows⟩ := ofJson_eq_ok.mp given
  exact ⟨fields, same, shows.extra.trans (unknownFields_eq (by decide)).symm⟩

/-- Each entry of a list is read from an item. -/
theorem ConfigEntry.mem_listOfJson {items : List Json} {entries : List ConfigEntry}
    (given : listOfJson items = .ok entries) :
    ∀ entry ∈ entries, ∃ item ∈ items, ofJson item = .ok entry := by
  induction items generalizing entries with
  | nil =>
    cases given
    exact fun entry member => absurd member List.not_mem_nil
  | cons item items ih =>
    obtain ⟨first, read, given⟩ := except_bind_ok given
    obtain ⟨others, later, given⟩ := except_bind_ok given
    cases given
    intro entry member
    rcases List.mem_cons.mp member with rfl | there
    · exact ⟨item, List.mem_cons_self, read⟩
    · obtain ⟨other, among, made⟩ := ih later entry there
      exact ⟨other, List.mem_cons_of_mem _ among, made⟩

/-- A config is read from an object with a list of entries in it. -/
theorem ConfigFile.ofJson_ok {value : Json} {config : ConfigFile}
    (given : ofJson value = .ok config) :
    ∃ fields items, value = .object fields ∧ fields.lookup "data" = some (.list items) ∧
      ConfigEntry.listOfJson items = .ok config.entries ∧
      config.extra = unknownFields knownFields fields := by
  obtain ⟨fields, same, ⟨items, list, shown⟩, -, -, others⟩ := ofJson_eq_ok.mp given
  exact ⟨fields, items, same, list, ConfigEntry.listOfJson_eq_ok.mpr shown,
    others.trans (unknownFields_eq (by decide)).symm⟩

/-- **A config that was read retains its fields**, if the floating point numbers in it are read
back. -/
theorem ConfigFile.retains_of_parse {text : String} {config : ConfigFile}
    (parsed : parse text = .ok config)
    (back : ∀ real, HasReal real config.toJson → ReadsBack real) : config.Retains := by
  unfold parse at parsed
  split at parsed
  · cases parsed
  · next value read =>
    obtain ⟨fields, items, rfl, there, entries, extra⟩ := ofJson_ok parsed
    obtain ⟨ordered, all⟩ := (Json.readable_of_read read).of_object
    have list := (all _ ((Json.lookup_eq_some_iff_mem ordered.distinct).mp there)).of_list
    constructor
    · rw [extra]
      refine retained_unknownFields ordered all fun field member real inside => back real ?_
      rw [← extra] at member
      exact .field (List.mem_append_right _ member) inside
    · intro entry member
      obtain ⟨item, among, made⟩ := ConfigEntry.mem_listOfJson entries entry member
      obtain ⟨inner, rfl, kept⟩ := ConfigEntry.ofJson_ok made
      obtain ⟨innerOrdered, innerAll⟩ := (list _ among).of_object
      rw [kept]
      refine retained_unknownFields innerOrdered innerAll fun field held real inside => back real ?_
      rw [← kept] at held
      have own : HasReal real entry.toJson := .field (List.mem_append_right _ held) inside
      have data : HasReal real (.list (config.entries.map ConfigEntry.toJson)) :=
        .item (List.mem_map_of_mem member) own
      exact .field (List.mem_append_left _ (List.mem_append_right _ List.mem_cons_self)) data

/-- **A config that was read is read back** from how it is written, with nothing of it lost. -/
theorem ConfigFile.parse_render_of_parse {text : String} {config : ConfigFile}
    (parsed : parse text = .ok config)
    (back : ∀ real, HasReal real config.toJson → ReadsBack real) :
    parse config.render = .ok config :=
  parse_render (retains_of_parse parsed back)

/-- The text of a config with much in it that is not known, out of order and given twice. -/
def crowdedText : String :=
  "\x7b\"zone\":[null,\x7b\"b\":18446744073709551615,\"a\":\"\\n\\\"é\"\x7d],"
    ++ "\"data\":[\x7b\"fsh\":\"a\\\\b\",\"stage\":null,\"x\":0,\"vsh\":\"\","
    ++ "\"x\":\x7b\"n\":-9223372036854775808\x7d\x7d],"
    ++ "\"outputFormat\":null,\"namespace\":\"art\",\"seed\":-1e17\x7d"

/-- The floating point number in that text. -/
def crowdedSeed : Decimal.Double := ⟨true, 6250000000000000, 4, by decide⟩

/-- The config in that text. -/
def crowdedConfig : ConfigFile :=
  ⟨some "art", none, [⟨none, none, "", "a\\b", none,
      [("x", .object [("n", .number (.integer (-9223372036854775808)))])]⟩],
    [("seed", .number (.real crowdedSeed)),
      ("zone", .list [.null, .object [("a", .text "\n\"é"),
        ("b", .number (.integer 18446744073709551615))]])]⟩

set_option maxRecDepth 2000 in
/-- **The crowded config is read back**: what was given twice is there once, and nothing else is
lost. -/
theorem ConfigFile.parse_render_of_parse_crowded :
    ConfigFile.parse crowdedText = .ok crowdedConfig ∧
      (∀ real, HasReal real crowdedConfig.toJson → ReadsBack real) ∧
      ConfigFile.parse crowdedConfig.render = .ok crowdedConfig := by
  have parsed : ConfigFile.parse crowdedText = .ok crowdedConfig := by rfl
  have back : ∀ real, HasReal real crowdedConfig.toJson → ReadsBack real := by
    intro real inside
    obtain rfl : crowdedSeed = real := by
      simpa [crowdedConfig, ConfigFile.toJson, ConfigEntry.toJson, ConfigEntry.optionalField]
        using inside
    show Json.read _ = _
    rfl
  exact ⟨parsed, back, ConfigFile.parse_render_of_parse parsed back⟩

/-- **A config that was read, with its paths changed, is read back** from how it is written. -/
theorem ConfigFile.parse_render_mapPaths {text : String} {config : ConfigFile}
    (parsed : parse text = .ok config)
    (back : ∀ real, HasReal real config.toJson → ReadsBack real) (change : String → String) :
    parse (render { config with entries := config.entries.map (ConfigEntry.mapPaths change) }) =
      .ok { config with entries := config.entries.map (ConfigEntry.mapPaths change) } :=
  parse_render ((retains_of_parse parsed back).mapPaths change)

/-- **A config is loaded from a file** that holds its text. -/
theorem ConfigFile.load_eq_ok {world : World} {path : Path} {config : ConfigFile} :
    ConfigFile.load world path = .ok config ↔
    ∃ content text, world.read path = .ok content ∧ String.fromUTF8? content = some text ∧
      ConfigFile.parse text = .ok config := by
  constructor
  · intro loaded
    unfold ConfigFile.load World.readText at loaded
    cases reads : world.read path with
    | error fault =>
      rw [reads] at loaded
      cases loaded
    | ok content =>
      rw [reads] at loaded
      dsimp only at loaded
      cases decoded : String.fromUTF8? content with
      | none =>
        rw [decoded] at loaded
        cases loaded
      | some text =>
        rw [decoded] at loaded
        refine ⟨content, text, rfl, decoded, ?_⟩
        change (ConfigFile.parse text).mapError _ = .ok config at loaded
        cases parsed : ConfigFile.parse text with
        | error fault =>
          rw [parsed] at loaded
          cases loaded
        | ok other =>
          rw [parsed] at loaded
          cases loaded
          rfl
  · rintro ⟨content, text, reads, decoded, parsed⟩
    rw [ConfigFile.load, World.readText, reads]
    dsimp only
    rw [decoded]
    show (ConfigFile.parse text).mapError _ = _
    rw [parsed]
    rfl

end ShaderForge

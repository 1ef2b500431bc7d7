/-
**Settings are read back from their file.**

The document of settings has a line for each of the two texts. A key without quotes is read up to
the blank behind it (`Toml.readKey_bare`), the text behind it is read back whatever it is, and so
each line adds its entry to those before it (`Settings.readLine_renderEntry`). Read as a whole, the
document gives the settings, if they pass their check (`Settings.parse_render`).

Written to a file, settings are loaded from it again: they themselves, or the error of their check
(`Settings.load_written`). Whether or not they can be written, nothing else is touched but missing
directories above the file (`Settings.keep_stages`). `Settings.persist_kept` puts both together.
-/

import ShaderForge.Proofs.OpenedDirectories
import ShaderForge.Proofs.TomlTexts
import ShaderForge.Settings

namespace ShaderForge

open World (Opened)

/-! ## Part 1 — one line -/

namespace Toml

variable {name : String} {cs rest : List Char} {c : Char} {depth bound : Nat}
  {draft later : Draft}

/-- A character of a bare key begins nothing else. -/
theorem isBare_ne (bare : isBare c = true) :
    ∀ other ∈ [' ', '\t', '\n', '\r', '#', '[', '"', '\'', '.'], c ≠ other := by
  rintro other among rfl
  have none : [' ', '\t', '\n', '\r', '#', '[', '"', '\'', '.'].all (fun other => !isBare other) =
      true := rfl
  have other := List.all_eq_true.mp none c among
  rw [bare] at other
  cases other

/-- No blank is skipped in front of a bare key. -/
theorem skipSpaces_bare (bare : isBare c = true) : skipSpaces (c :: cs) = c :: cs := by
  have free := isBare_ne bare
  have solid : isSpace c = false := by
    rw [isSpace, Bool.or_eq_false_iff, beq_eq_false_iff_ne, beq_eq_false_iff_ne]
    exact ⟨free ' ' (by decide), free '\t' (by decide)⟩
  rw [skipSpaces, List.dropWhile_cons_of_neg (by rw [solid]; exact Bool.false_ne_true)]

/-- **A key without quotes** is read up to the blank behind it. -/
theorem readKey_bare (bare : ∀ c ∈ name.toList, isBare c = true) (proper : name.toList ≠ [])
    (rest : List Char) :
    readKey (name.toList ++ ' ' :: '=' :: rest) = some ([], name, '=' :: rest) := by
  obtain ⟨c, cs, shape⟩ := List.exists_cons_of_ne_nil proper
  have first : isBare c = true := bare c (shape ▸ List.mem_cons_self)
  have free := isBare_ne first
  have part : readPart (name.toList ++ ' ' :: '=' :: rest) = some (name, ' ' :: '=' :: rest) := by
    have own : (name.toList ++ ' ' :: '=' :: rest).takeWhile isBare = name.toList := by
      rw [List.takeWhile_append_of_pos bare]
      exact List.append_nil _
    have others : (name.toList ++ ' ' :: '=' :: rest).dropWhile isBare = ' ' :: '=' :: rest :=
      List.dropWhile_append_of_pos bare
    unfold readPart
    rw [own, others, shape, List.cons_append]
    split
    · next same => exact absurd (List.cons.inj same).1 (free '"' (by decide))
    · next same => exact absurd (List.cons.inj same).1 (free '\'' (by decide))
    · show (if (c :: cs).isEmpty = true then none else some (String.ofList (c :: cs), _)) = _
      rw [List.isEmpty_cons, if_neg Bool.false_ne_true, ← shape, String.ofList_toList]
  have skipped : skipSpaces (name.toList ++ ' ' :: '=' :: rest) =
      name.toList ++ ' ' :: '=' :: rest := by
    rw [shape]
    exact skipSpaces_bare first
  rw [readKey, show depthBound - 1 = 78 + 1 from rfl, readParted, skipped, part]
  rfl

/-- A text in any form begins with a quote. -/
theorem exists_writeText (text : String) : ∃ quote more, writeText text = quote :: more ∧
    (quote = '"' ∨ quote = '\'') := by
  unfold writeText
  cases formOf text.toList with
  | basic => exact ⟨'"', _, rfl, .inl rfl⟩
  | literal => exact ⟨'\'', _, rfl, .inr rfl⟩
  | longBasic => exact ⟨'"', _, rfl, .inl rfl⟩
  | longLiteral => exact ⟨'\'', _, rfl, .inr rfl⟩

/-- **A text is a value that is read back.** -/
theorem readValue_writeText (text : String) (ends : ∀ c ∈ rest.head?, c ≠ '"' ∧ c ≠ '\'') :
    readValue (depth + 1) (writeText text ++ rest) = some (.text text, rest) := by
  have whole := readText_writeText text ends
  obtain ⟨quote, more, shape, rfl | rfl⟩ := exists_writeText text
  · rw [shape, List.cons_append] at whole ⊢
    rw [readValue, whole]
    rfl
  · rw [shape, List.cons_append] at whole ⊢
    rw [readValue, whole]
    rfl

/-- A line that can be read makes way for the lines after it. -/
theorem readLinesFrom_line (some_text : cs ≠ []) (line : readLine draft cs = some (later, rest)) :
    readLinesFrom (bound + 1) draft cs = readLinesFrom bound later rest := by
  obtain ⟨c, cs, rfl⟩ := List.exists_cons_of_ne_nil some_text
  rw [readLinesFrom, line]

end Toml

namespace Settings

open Toml (isBare)

variable {name : String} {settings : Settings} {path : Path} {before after : World}

/-- **The line of an entry adds the entry** to those before it. -/
theorem readLine_renderEntry {entries : Toml.Entries} (bare : ∀ c ∈ name.toList, isBare c = true)
    (proper : name.toList ≠ []) (fresh : entries.lookup name = none) (value : String)
    (rest : List Char) :
    Toml.readLine ⟨entries, []⟩ (renderEntry name value ++ rest) =
      some (⟨entries ++ [(name, .text value)], []⟩, rest) := by
  obtain ⟨c, cs, shape⟩ := List.exists_cons_of_ne_nil proper
  have first : isBare c = true := bare c (shape ▸ List.mem_cons_self)
  have free := Toml.isBare_ne first
  have whole : renderEntry name value ++ rest =
      name.toList ++ ' ' :: '=' :: ' ' :: (Toml.writeText value ++ '\n' :: rest) := by
    rw [renderEntry, show " = ".toList = [' ', '=', ' '] by rfl]
    simp only [List.append_assoc, List.cons_append, List.nil_append]
  have key := Toml.readKey_bare bare proper (' ' :: (Toml.writeText value ++ '\n' :: rest))
  rw [shape, List.cons_append] at key whole
  generalize cs ++ ' ' :: '=' :: ' ' :: (Toml.writeText value ++ '\n' :: rest) = tail at key whole
  have skipped : Toml.skipSpaces (c :: tail) = c :: tail := Toml.skipSpaces_bare first
  have going : Toml.endLine (c :: tail) = none := by
    unfold Toml.endLine
    rw [skipped]
    split
    · next same => exact absurd (List.cons.inj same).1 (free '#' (by decide))
    · dsimp only
      split
      · next same => cases same
      · next same => exact absurd (List.cons.inj same).1 (free '\n' (by decide))
      · next same => exact absurd (List.cons.inj same).1 (free '\r' (by decide))
      · rfl
  have valued : Toml.readValue Toml.depthBound
      (Toml.skipSpaces (' ' :: (Toml.writeText value ++ '\n' :: rest))) =
        some (.text value, '\n' :: rest) := by
    have solid : Toml.skipSpaces (' ' :: (Toml.writeText value ++ '\n' :: rest)) =
        Toml.writeText value ++ '\n' :: rest := by
      obtain ⟨quote, more, begins, rfl | rfl⟩ := Toml.exists_writeText value <;> rw [begins] <;> rfl
    rw [solid, show Toml.depthBound = 79 + 1 from rfl]
    exact Toml.readValue_writeText value (by rintro _ ⟨⟩; decide)
  rw [whole, Toml.readLine, skipped]
  split
  · next same => exact absurd (List.cons.inj same).1 (free '[' (by decide))
  · next same => exact absurd (List.cons.inj same).1 (free '[' (by decide))
  · simp only [going, key, valued]
    rw [Toml.Draft.enter, Toml.within, Toml.assign, fresh]
    rfl

/-! ## Part 2 — the document -/

/-- No line of an entry is empty. -/
theorem renderEntry_ne_nil (name value : String) : renderEntry name value ≠ [] :=
  List.append_ne_nil_of_right_ne_nil _ (List.cons_ne_nil '\n' [])

/-- **The document of settings** has one entry for each text. -/
theorem read_render (settings : Settings) : Toml.read settings.render =
    some [("binary_path", .text settings.binaryPath), ("api_url", .text settings.apiUrl)] := by
  have first : Toml.readLine ⟨[], []⟩ (renderEntry "binary_path" settings.binaryPath ++
      renderEntry "api_url" settings.apiUrl) =
        some (⟨[("binary_path", .text settings.binaryPath)], []⟩,
          renderEntry "api_url" settings.apiUrl) :=
    readLine_renderEntry (List.all_eq_true.mp rfl) (by simp) rfl _ _
  have second : Toml.readLine ⟨[("binary_path", .text settings.binaryPath)], []⟩
      (renderEntry "api_url" settings.apiUrl ++ []) =
        some (⟨[("binary_path", .text settings.binaryPath),
          ("api_url", .text settings.apiUrl)], []⟩, []) :=
    readLine_renderEntry (List.all_eq_true.mp rfl) (by simp) rfl _ _
  -- The document begins with a letter, so there is no mark to leave out.
  have unmarked : Toml.withoutMark settings.render.toList =
      renderEntry "binary_path" settings.binaryPath ++ renderEntry "api_url" settings.apiUrl := by
    rw [render, String.toList_ofList]
    rfl
  have some_line := renderEntry_ne_nil "api_url" settings.apiUrl
  have some_text := List.append_ne_nil_of_right_ne_nil
    (renderEntry "binary_path" settings.binaryPath) some_line
  obtain ⟨bound, length⟩ := Nat.exists_eq_add_one_of_ne_zero
    (mt List.length_eq_zero_iff.mp some_text)
  rw [List.append_nil] at second
  rw [Toml.read, unmarked, length, Toml.readLinesFrom_line some_text first,
    Toml.readLinesFrom_line some_line second]
  exact Toml.readLinesFrom.eq_1 bound _

/-- **Settings are read back from their document**, if they pass their check. -/
theorem parse_render (settings : Settings) :
    parse settings.render = settings.check.map fun _ => settings := by
  have entries : ofEntries
      [("binary_path", .text settings.binaryPath), ("api_url", .text settings.apiUrl)] =
        .ok settings := rfl
  rw [parse, read_render]
  dsimp only
  rw [entries]
  show (settings.check >>= fun _ => pure settings) = _
  cases settings.check <;> rfl

/-- Text with both quotes and a backslash is written between tripled quotes, as it is. -/
example : (Settings.mk "a\"b'\\" "").render =
    "binary_path = '''a\"b'\\'''\napi_url = \"\"\n" := by decide

/-! ## Part 3 — the file -/

/-- A text that was written is read from the same path. -/
theorem readText_written {text : String} (written : before.write path text.toUTF8 = .ok after) :
    after.isThere path = true ∧ after.readText path = .ok text := by
  obtain ⟨parent, name, goal, free, placed⟩ := World.write_placed written
  constructor
  · rw [World.isThere, World.find?_eq_some.mpr (placed.find free goal)]
    rfl
  · have decoded : String.fromUTF8? text.toUTF8 = some text := dif_pos text.isValidUTF8
    rw [World.readText, placed.read free goal]
    dsimp only
    rw [decoded]
    rfl

/-- **Settings that were written are loaded** from the same path. -/
theorem load_written (written : before.write path settings.render.toUTF8 = .ok after) :
    load after path = settings.check.map fun _ => settings := by
  have parsed := parse_render settings
  -- The text of the document is not looked into from here on.
  generalize settings.render = text at written parsed
  obtain ⟨there, same⟩ := readText_written written
  rw [load, there, same]
  exact parsed

/-- **What keeping settings does**: directories above the file are opened, and then the file is
written, or nothing more is done. -/
theorem keep_stages (settings : Settings) (path : Path) (world : World) :
    ∃ middle, Opened path.parents world middle ∧
      ((∃ fault, (settings.keep path).run.run world = (.error fault, middle)) ∨
        ∃ after, middle.write path settings.render.toUTF8 = .ok after ∧
          (settings.keep path).run.run world = (.ok ⟨⟩, after)) := by
  have writes : ∀ middle,
      (∃ fault, (Disk.write path settings.render.toUTF8).run.run middle = (.error fault, middle)) ∨
        ∃ after, middle.write path settings.render.toUTF8 = .ok after ∧
          (Disk.write path settings.render.toUTF8).run.run middle = (.ok ⟨⟩, after) := by
    intro middle
    rw [Disk.write, Disk.run_change]
    cases written : middle.write path settings.render.toUTF8 with
    | error fault => exact .inl ⟨fault, rfl⟩
    | ok after => exact .inr ⟨after, rfl, rfl⟩
  rw [Path.parents_eq]
  unfold keep
  cases path.parent? with
  | none => exact ⟨world, Opened.refl [] world, writes world⟩
  | some directory =>
    have opened := World.makeDirectories_opens directory world
    dsimp only
    rw [Disk.run_bind]
    rcases made : (Disk.makeDirectories directory).run.run world with ⟨fault | _, middle⟩
    · rw [made] at opened
      exact ⟨middle, opened, .inl ⟨fault, rfl⟩⟩
    · rw [made] at opened
      exact ⟨middle, opened, writes middle⟩

/-! ## Part 4 — there and back -/

/-- **Settings kept in a file**: they are loaded from it, or refused as their check says, and
nothing is touched but the file and missing directories above it. -/
structure Kept (settings : Settings) (path : Path) (before : World)
    (outcome : Except SettingsError Unit) (after : World) : Prop where
  accepted : outcome = .ok ⟨⟩ → settings.check = .ok ⟨⟩ → load after path = .ok settings
  refused : outcome = .ok ⟨⟩ → settings.check ≠ .ok ⟨⟩ → load after path = .error .noBackend
  cwd : after.cwd = before.cwd
  nodes : ∀ place, after.node? place = before.node? place ∨
    (before.node? place = none ∧
      ∃ directory ∈ path.parents, after.find directory = .ok (place, .directory)) ∨
    (outcome = .ok ⟨⟩ ∧ after.find path = .ok (place, .file settings.render.toUTF8))

/-- Settings that fail their check name no compiler and no service. -/
theorem check_error (refused : settings.check ≠ .ok ⟨⟩) : settings.check = .error .noBackend := by
  unfold check at refused ⊢
  split at refused
  · next blank => exact if_pos blank
  · exact absurd rfl refused

/-- **Whatever settings are written, they are read back**, and nothing else is touched. -/
theorem persist_kept (settings : Settings) (path : Path) (world : World) :
    settings.Kept path world (settings.persist path world).1 (settings.persist path world).2 := by
  obtain ⟨middle, opened, ⟨fault, ran⟩ | ⟨after, written, ran⟩⟩ := keep_stages settings path world
  · rw [persist, ran]
    refine ⟨(fun done => nomatch done), (fun done => nomatch done), opened.cwd, fun place => ?_⟩
    exact (opened.nodes place).imp_right .inl
  · have loaded := load_written written
    obtain ⟨parent, name, goal, free, placed⟩ := World.write_placed written
    have keeps := placed.keepsDirectories free
    rw [persist, ran]
    refine ⟨fun _ passed => ?_, fun _ failed => ?_, keeps.cwd.trans opened.cwd, fun place => ?_⟩
    · rw [loaded, passed]
      rfl
    · rw [loaded, check_error failed]
      rfl
    · rw [placed.nodes]
      by_cases own : place = name :: parent
      · rw [if_pos own, own]
        exact .inr (.inr ⟨rfl, placed.find free goal⟩)
      · rw [if_neg own]
        refine (opened.nodes place).imp_right fun ⟨empty, directory, above, found⟩ => .inl ?_
        exact ⟨empty, directory, above, keeps.find_directory found⟩

/-- Settings with marks of their own are kept where nothing is; so are settings without a compiler
and a service, which are refused when they are loaded. -/
theorem persist_kept_bare :
    let named := persist ⟨"a\"b'\\", "\n"⟩ ⟨"/kept/settings.toml"⟩ .bare
    let blank := persist ⟨"", " "⟩ ⟨"/kept/settings.toml"⟩ .bare
    named.1 = .ok ⟨⟩ ∧ load named.2 ⟨"/kept/settings.toml"⟩ = .ok ⟨"a\"b'\\", "\n"⟩ ∧
      blank.1 = .ok ⟨⟩ ∧ load blank.2 ⟨"/kept/settings.toml"⟩ = .error .noBackend := by
  intro named blank
  have stored : named.1 = .ok ⟨⟩ := by rfl
  have stored' : blank.1 = .ok ⟨⟩ := by rfl
  exact ⟨stored, (persist_kept _ _ _).accepted stored (by rfl), stored',
    (persist_kept _ _ _).refused stored' (by decide +kernel)⟩

end Settings

end ShaderForge

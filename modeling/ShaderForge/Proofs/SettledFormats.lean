/-
**What settles the output format.**

A text says what is left of it without the blanks around it, if anything is (`Says`). Four sources
can settle the format, in this order: the format that was asked for, the configs of the job, the
user, and `lua`. Each counts only if those before it say nothing (`Settles`). Among the configs it
is the first one, in the order in which they are compiled, that can be read and declares a format;
the configs in front of it may be unreadable or declare nothing (`JobInput.Declares`).

`outputFormat_settled`: this is the format of the job, and nothing else is. It has no blanks around
it and is not empty, and the user is asked once if nothing before decides, and else not at all. Only
a job that is cancelled while its configs are searched (`CutShort`) has no format.
-/

import Mathlib.Data.List.Basic
import ShaderForge.Job.Format
import ShaderForge.Proofs.LocatedFindings
import ShaderForge.Proofs.Perform

namespace ShaderForge

open Text (isBlank dropBlank dropBlankEnd trimChars)

variable {world : World} {input : JobInput} {format : String}

/-! ## Part 1 — what a text says -/

/-- **What a text says**: all of it but the blanks around it, if anything is left. -/
def Says (text format : String) : Prop :=
  ∃ front back, text.toList = front ++ (format.toList ++ back) ∧
    (∀ c ∈ front, isBlank c = true) ∧ Solid format.toList ∧ ∀ c ∈ back, isBlank c = true

/-- What is left of a text without the blanks around it ends with something else. -/
theorem getLast?_dropBlankEnd (text : List Char) :
    ∀ c ∈ (dropBlankEnd text).getLast?, isBlank c = false := by
  intro c last
  have stops := List.head?_dropWhile_not isBlank text.reverse
  rw [dropBlankEnd, List.getLast?_reverse, Option.mem_def] at last
  rw [last] at stops
  simpa using stops

/-- **A text is blanks, what it says, and blanks.** -/
theorem says_trim {text : String} (some_text : Text.trim text ≠ "") :
    Says text (Text.trim text) := by
  obtain ⟨back, whole, after⟩ := exists_gap (dropBlank text.toList)
  have trimmed : (Text.trim text).toList = trimChars text.toList := String.toList_ofList
  refine ⟨text.toList.takeWhile isBlank, back, ?_, List.all_eq_true.mp List.all_takeWhile,
    ⟨?_, ?_, ?_⟩, after⟩
  · rw [trimmed, trimChars, ← whole, dropBlank, List.takeWhile_append_dropWhile]
  · exact fun nothing => some_text (String.toList_eq_nil_iff.mp nothing)
  · rw [trimmed]
    exact head?_trimChars text.toList
  · rw [trimmed]
    exact getLast?_dropBlankEnd _

theorem meaningful?_eq_some_iff {text : String} :
    meaningful? text = some format ↔ Says text format := by
  rw [meaningful?, Option.filter_eq_some_iff, Option.some.injEq]
  constructor
  · rintro ⟨rfl, some_text⟩
    refine says_trim fun nothing => ?_
    rw [nothing] at some_text
    cases some_text
  · rintro ⟨front, back, whole, before, solid, after⟩
    refine ⟨?_, ?_⟩
    · rw [Text.trim, whole, trimChars_around before solid after, String.ofList_toList]
    · have some_text : format ≠ "" := fun nothing => solid.nonempty (nothing ▸ rfl)
      simpa using some_text

/-- A text says nothing exactly if it is blank. -/
theorem meaningful?_eq_none_iff {text : String} :
    meaningful? text = none ↔ Text.isBlankText text = true := by
  rw [Option.eq_none_iff_forall_ne_some]
  simp only [ne_eq, meaningful?_eq_some_iff, Text.isBlankText, List.all_eq_true]
  constructor
  · intro silent
    by_contra some_text
    obtain ⟨c, inside, solid⟩ : ∃ c ∈ text.toList, ¬ isBlank c = true := by
      simpa only [not_forall, exists_prop] using some_text
    refine silent _ (says_trim fun nothing => ?_)
    have empty : trimChars text.toList = [] := by
      rw [← String.toList_ofList (l := trimChars text.toList), ← Text.trim, nothing]
      rfl
    exact trimChars_ne_nil inside (Bool.eq_false_iff.mpr solid) empty
  · rintro blank format ⟨front, back, whole, -, solid, -⟩
    obtain ⟨c, rest, same⟩ := List.exists_cons_of_ne_nil solid.nonempty
    have inside : c ∈ text.toList := by simp [whole, same]
    have begins := solid.first c (by simp [same])
    rw [blank c inside] at begins
    cases begins

/-- A source that may be missing says nothing exactly if it is missing or blank. -/
theorem bind_meaningful?_eq_none_iff {source : Option String} :
    source.bind meaningful? = none ↔ ∀ text ∈ source, Text.isBlankText text = true := by
  rw [Option.bind_eq_none_iff]
  exact forall₂_congr fun text _ => meaningful?_eq_none_iff

/-! ## Part 2 — what the configs declare -/

/-- **The format that a config declares.** -/
def ConfigFile.Declares (config : ConfigFile) (format : String) : Prop :=
  ∃ text, config.outputFormat = some text ∧ Says text format

theorem ConfigFile.declaredFormat?_eq_some_iff {config : ConfigFile} :
    config.declaredFormat? = some format ↔ config.Declares format := by
  have same : config.declaredFormat? = config.outputFormat.bind meaningful? := by
    rw [declaredFormat?]
    cases config.outputFormat <;> rfl
  rw [same, Option.bind_eq_some_iff]
  exact exists_congr fun text => and_congr_right fun _ => meaningful?_eq_some_iff

/-- **The format that the configs of a job declare.** A shader has the config that it came with; of
other configs it is the first one that can be read and declares one. -/
inductive JobInput.Declares (world : World) : JobInput → String → Prop
  | held {target : ShaderTarget} {format : String} (declares : target.config.Declares format) :
    Declares world (.shader target) format
  | listed {input : JobInput} {before after : List Path} {path : Path} {config : ConfigFile}
    {format : String} (several : ∀ target, input ≠ .shader target)
    (files : input.configFiles world = before ++ path :: after)
    (loads : ConfigFile.load world path = .ok config) (declares : config.Declares format)
    (first : ∀ earlier ∈ before, ∀ config, ConfigFile.load world earlier = .ok config →
      ∀ format, ¬ config.Declares format) : Declares world input format

theorem formatIn?_eq_some_iff {path : Path} : formatIn? world path = some format ↔
    ∃ config, ConfigFile.load world path = .ok config ∧ config.Declares format := by
  simp only [formatIn?, Option.bind_eq_some_iff, ConfigFile.declaredFormat?_eq_some_iff]
  cases ConfigFile.load world path with
  | error fault => simp [Except.toOption]
  | ok config => simp [Except.toOption]

/-- A search through the configs finds the first one that declares a format. -/
theorem findSome?_formatIn?_eq_some_iff {files : List Path} :
    files.findSome? (formatIn? world) = some format ↔
      ∃ before path after config, files = before ++ path :: after ∧
        ConfigFile.load world path = .ok config ∧ config.Declares format ∧
        ∀ earlier ∈ before, ∀ config, ConfigFile.load world earlier = .ok config →
          ∀ format, ¬ config.Declares format := by
  have silent : ∀ path, formatIn? world path = none ↔
      ∀ config, ConfigFile.load world path = .ok config → ∀ format, ¬ config.Declares format := by
    intro path
    simp only [Option.eq_none_iff_forall_ne_some, ne_eq, formatIn?_eq_some_iff]
    constructor
    · exact fun none config loads format declares => none format ⟨config, loads, declares⟩
    · rintro none format ⟨config, loads, declares⟩
      exact none config loads format declares
  simp only [List.findSome?_eq_some_iff, formatIn?_eq_some_iff, silent]
  constructor
  · rintro ⟨before, path, after, files, ⟨config, loads, declares⟩, first⟩
    exact ⟨before, path, after, config, files, loads, declares, first⟩
  · rintro ⟨before, path, after, config, files, loads, declares, first⟩
    exact ⟨before, path, after, files, ⟨config, loads, declares⟩, first⟩

/-- **The format that is found in the configs is the one that they declare.** -/
theorem JobInput.declaredFormat?_eq_some_iff :
    input.declaredFormat? world = some format ↔ input.Declares world format := by
  have several : (∀ target, input ≠ .shader target) →
      ((input.configFiles world).findSome? (formatIn? world) = some format ↔
        input.Declares world format) := by
    intro several
    rw [findSome?_formatIn?_eq_some_iff]
    constructor
    · rintro ⟨before, path, after, config, files, loads, declares, first⟩
      exact .listed several files loads declares first
    · intro declares
      cases declares with
      | held => exact absurd rfl (several _)
      | listed _ files loads declares first =>
        exact ⟨_, _, _, _, files, loads, declares, first⟩
  cases input with
  | directory root => exact several fun _ => nofun
  | config root path => exact several fun _ => nofun
  | shader target =>
    rw [declaredFormat?, ConfigFile.declaredFormat?_eq_some_iff]
    constructor
    · exact .held
    · intro declares
      cases declares with
      | held declares => exact declares
      | listed several => exact absurd rfl (several _)

/-! ## Part 3 — what settles the format -/

/-- **What settles the format of a job**, and the choices that the user is offered for it: the first
source that says anything. -/
inductive Settles (hint : Option String) (input : JobInput) (world : World)
    (prompt : List String → Option String) : String → List (List String) → Prop
  | hint {text format : String} (given : hint = some text) (stated : Says text format) :
    Settles hint input world prompt format []
  | config {format : String} (unasked : ∀ text ∈ hint, Text.isBlankText text = true)
    (declares : input.Declares world format) : Settles hint input world prompt format []
  | answer {text format : String} (unasked : ∀ text ∈ hint, Text.isBlankText text = true)
    (undeclared : ∀ format, ¬ input.Declares world format)
    (answered : prompt ["lua", "cpp", "ts"] = some text) (stated : Says text format) :
    Settles hint input world prompt format [["lua", "cpp", "ts"]]
  | fallback (unasked : ∀ text ∈ hint, Text.isBlankText text = true)
    (undeclared : ∀ format, ¬ input.Declares world format)
    (unanswered : ∀ text ∈ prompt ["lua", "cpp", "ts"], Text.isBlankText text = true) :
    Settles hint input world prompt "lua" [["lua", "cpp", "ts"]]

namespace Settles

variable {hint : Option String} {prompt : List String → Option String}
  {questions : List (List String)}

/-- What is settled says something and has no blanks around it. -/
theorem solid (settles : Settles hint input world prompt format questions) :
    Solid format.toList := by
  have inside : ∀ {text : String}, Says text format → Solid format.toList :=
    fun ⟨_, _, _, _, solid, _⟩ => solid
  cases settles with
  | hint given stated => exact inside stated
  | config unasked declares =>
    cases declares with
    | held declares => exact inside declares.choose_spec.2
    | listed several files loads declares first => exact inside declares.choose_spec.2
  | answer unasked undeclared answered stated => exact inside stated
  | fallback unasked undeclared unanswered =>
    exact ⟨by decide, by simp [isBlank], by simp [isBlank]⟩

/-- **The source that settles the format is the one whose text is taken.** -/
theorem iff_taken :
    Settles hint input world prompt format questions ↔
      (format, questions) =
        match hint.bind meaningful?, input.declaredFormat? world with
        | some format, _ => (format, [])
        | none, some format => (format, [])
        | none, none => (((prompt outputFormats).bind meaningful?).getD fallbackFormat,
          [outputFormats]) := by
  have undeclared_iff : (∀ format, ¬ input.Declares world format) ↔
      input.declaredFormat? world = none := by
    simp only [← JobInput.declaredFormat?_eq_some_iff, Option.eq_none_iff_forall_ne_some, ne_eq]
  constructor
  · intro settles
    cases settles with
    | hint given stated => rw [given, Option.bind_some, meaningful?_eq_some_iff.mpr stated]
    | config unasked declares =>
      rw [bind_meaningful?_eq_none_iff.mpr unasked,
        JobInput.declaredFormat?_eq_some_iff.mpr declares]
    | answer unasked undeclared answered stated =>
      rw [bind_meaningful?_eq_none_iff.mpr unasked, undeclared_iff.mp undeclared]
      dsimp only
      rw [outputFormats, answered, Option.bind_some, meaningful?_eq_some_iff.mpr stated]
      rfl
    | fallback unasked undeclared unanswered =>
      rw [bind_meaningful?_eq_none_iff.mpr unasked, undeclared_iff.mp undeclared]
      dsimp only
      rw [outputFormats, bind_meaningful?_eq_none_iff.mpr unanswered]
      rfl
  · intro same
    split at same
    · next given =>
      cases same
      obtain ⟨text, given, stated⟩ := Option.bind_eq_some_iff.mp given
      exact .hint given (meaningful?_eq_some_iff.mp stated)
    · next unasked declared =>
      cases same
      exact .config (bind_meaningful?_eq_none_iff.mp unasked)
        (JobInput.declaredFormat?_eq_some_iff.mp declared)
    · next unasked undeclared =>
      have unasked := bind_meaningful?_eq_none_iff.mp unasked
      have undeclared := undeclared_iff.mpr undeclared
      cases answered : (prompt outputFormats).bind meaningful? with
      | some choice =>
        rw [answered] at same
        cases same
        obtain ⟨text, answered, stated⟩ := Option.bind_eq_some_iff.mp answered
        exact .answer unasked undeclared answered (meaningful?_eq_some_iff.mp stated)
      | none =>
        rw [answered] at same
        cases same
        exact .fallback unasked undeclared (bind_meaningful?_eq_none_iff.mp answered)

/-- A source that settles the format is the only one, the user is asked once at most, and is asked
exactly if no source before decides. -/
theorem exact (settles : Settles hint input world prompt format questions) :
    (∀ other asked, Settles hint input world prompt other asked ↔
      other = format ∧ asked = questions) ∧
    questions.length ≤ 1 ∧
    (questions ≠ [] ↔ (∀ text ∈ hint, Text.isBlankText text = true) ∧
      ∀ format, ¬ input.Declares world format) := by
  refine ⟨fun other asked => ?_, ?_, ?_⟩
  · rw [iff_taken, ← iff_taken.mp settles, Prod.mk.injEq]
  · cases settles <;> simp
  · cases settles with
    | hint given stated =>
      refine iff_of_false (fun asked => asked rfl) fun blank => ?_
      have silent := meaningful?_eq_none_iff.mpr (blank.1 _ given)
      rw [meaningful?_eq_some_iff.mpr stated] at silent
      cases silent
    | config unasked declares =>
      exact iff_of_false (fun asked => asked rfl) fun blank => blank.2 _ declares
    | answer unasked undeclared => exact iff_of_true (List.cons_ne_nil _ _) ⟨unasked, undeclared⟩
    | fallback unasked undeclared =>
      exact iff_of_true (List.cons_ne_nil _ _) ⟨unasked, undeclared⟩

end Settles

/-! ## Part 4 — the format of a job -/

/-- **A job leaves a trace with some questions more**, and nothing else of it can be seen. -/
structure Session.Asks (before after : Session) (questions : List (List String)) : Prop where
  world : after.world = before.world
  findings : after.findings = before.findings
  prompts : after.trace.prompts = before.trace.prompts ++ questions

namespace Session

theorem Asks.nothing (session : Session) : Asks session session [] :=
  ⟨rfl, rfl, (List.append_nil _).symm⟩

theorem Asks.looked (session : Session) : Asks session session.looked [] := by
  refine ⟨rfl, rfl, ?_⟩
  rw [Session.looked_trace, Trace.prompts, List.reverse_cons, List.filterMap_append]
  rfl

theorem Asks.prompted (session : Session) (choices : List String) :
    Asks session (session.looked.noting (.prompted choices)) [choices] := by
  refine ⟨rfl, rfl, ?_⟩
  rw [Session.noting_trace, Trace.prompts, List.reverse_cons, List.filterMap_append,
    ← Trace.prompts, (Asks.looked session).prompts, List.append_nil]
  rfl

end Session

namespace Job

variable {hooks : Hooks} {session : Session} {hint : Option String}

/-- **The job is cancelled while its configs are searched**: they are because no format was asked
for, and the token has fired when the search is over. -/
def CutShort (hint : Option String) (hooks : Hooks) (session : Session) : Prop :=
  (∀ text ∈ hint, Text.isBlankText text = true) ∧ hooks.token.fired session.looked.trace = true

/-- A question about the files that is waited for ends with its answer, unless the token has fired.
-/
theorem perform_awaited_inspect {α : Type} (question : World → Except JobError α) :
    (awaited (inspect question)).perform hooks session =
      (if hooks.token.fired session.looked.trace = true then .error .canceled
        else question session.world, session.looked) := by
  have waits : (awaited (inspect question)).perform hooks session =
      (checkpoint >>= fun _ => settle (question session.world)).perform hooks session := by
    show ((inspect question).attempt >>= fun outcome => checkpoint >>= fun _ =>
      settle outcome).perform hooks session = _
    rw [perform_bind_ok (perform_attempt _), perform_inspect]
  rw [waits]
  by_cases fired : hooks.token.fired session.looked.trace = true
  · rw [if_pos fired]
    exact perform_bind_error (by rw [perform_checkpoint_eq, if_pos fired])
  · rw [if_neg fired, perform_bind_ok (by rw [perform_checkpoint_eq, if_neg fired]),
      perform_settle]

/-- **The user is asked once**, and what is said or the format for no answer is taken. -/
theorem perform_chosenFormat :
    chosenFormat.perform hooks session =
      (.ok (((hooks.prompt outputFormats).bind meaningful?).getD fallbackFormat),
        session.noting (.prompted outputFormats)) := by
  show (choose outputFormats >>= fun answer =>
    pure ((answer.bind meaningful?).getD fallbackFormat)).perform hooks session = _
  rw [perform_bind_ok (perform_choose _), perform_pure]

/-- **The search through the configs decides, or the user does**, unless the job is cancelled. -/
theorem perform_declaredFormat :
    (declaredFormat input).perform hooks session =
      if hooks.token.fired session.looked.trace = true then (.error .canceled, session.looked)
      else match input.declaredFormat? session.world with
        | some format => (.ok format, session.looked)
        | none => (.ok (((hooks.prompt outputFormats).bind meaningful?).getD fallbackFormat),
            session.looked.noting (.prompted outputFormats)) := by
  have searched := @perform_awaited_inspect hooks session _
    fun world => .ok (input.declaredFormat? world)
  unfold declaredFormat
  by_cases fired : hooks.token.fired session.looked.trace = true
  · rw [if_pos fired] at searched ⊢
    exact perform_bind_error searched
  · rw [if_neg fired] at searched ⊢
    refine (perform_bind_ok searched).trans ?_
    cases input.declaredFormat? session.world with
    | some format => rfl
    | none => exact perform_chosenFormat

/-- **The output format of a job is the one that is settled**: what was asked for, or what the first
config that can be read and declares a format declares, or what the user says, or `lua`, and only
that. The user is asked once at most, and exactly if neither what was asked for nor any config
decides. -/
theorem outputFormat_settled (hooks : Hooks) (session : Session) (hint : Option String)
    (input : JobInput) :
    ∃ format questions,
      (∀ other asked, Settles hint input session.world hooks.prompt other asked ↔
        other = format ∧ asked = questions) ∧
      Solid format.toList ∧
      questions.length ≤ 1 ∧
      (questions ≠ [] ↔ (∀ text ∈ hint, Text.isBlankText text = true) ∧
        ∀ format, ¬ input.Declares session.world format) ∧
      (CutShort hint hooks session →
        (outputFormat hint input).perform hooks session = (.error .canceled, session.looked)) ∧
      (¬ CutShort hint hooks session → ∃ after,
        (outputFormat hint input).perform hooks session = (.ok format, after) ∧
          session.Asks after questions) := by
  have run : ∃ format questions,
      Settles hint input session.world hooks.prompt format questions ∧
      (CutShort hint hooks session →
        (outputFormat hint input).perform hooks session = (.error .canceled, session.looked)) ∧
      (¬ CutShort hint hooks session → ∃ after,
        (outputFormat hint input).perform hooks session = (.ok format, after) ∧
          session.Asks after questions) := by
    rw [outputFormat]
    cases given : hint.bind meaningful? with
    | some format =>
      refine ⟨format, [], Settles.iff_taken.mpr (by rw [given]), fun cut => ?_,
        fun _ => ⟨session, rfl, .nothing session⟩⟩
      rw [bind_meaningful?_eq_none_iff.mpr cut.1] at given
      cases given
    | none =>
      have unasked := bind_meaningful?_eq_none_iff.mp given
      cases declared : input.declaredFormat? session.world with
      | some format =>
        refine ⟨format, [], Settles.iff_taken.mpr (by rw [given, declared]), fun cut => ?_,
          fun through => ⟨session.looked, ?_, .looked session⟩⟩
        · exact perform_declaredFormat.trans (if_pos cut.2)
        · rw [perform_declaredFormat, if_neg fun fired => through ⟨unasked, fired⟩, declared]
      | none =>
        refine ⟨_, [outputFormats], Settles.iff_taken.mpr (by rw [given, declared]),
          fun cut => ?_, fun through => ⟨_, ?_, .prompted session outputFormats⟩⟩
        · exact perform_declaredFormat.trans (if_pos cut.2)
        · rw [perform_declaredFormat, if_neg fun fired => through ⟨unasked, fired⟩, declared]
  obtain ⟨format, questions, settles, cut, through⟩ := run
  obtain ⟨only, once, asked⟩ := settles.exact
  exact ⟨format, questions, only, settles.solid, once, asked, cut, through⟩

end Job

end ShaderForge

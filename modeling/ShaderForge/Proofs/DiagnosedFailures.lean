/-
**Failures and the errors that come with them.**

A remote job fails when the log of its answer has an error tag anywhere. What is published then are
the findings of the compiler's part of that log, and a tag with nothing behind it gives none. So a
job can fail without an error to show for it (`failure_without_error`), and its log is gone.

When it does can be read off the log: `generate_diagnoses`, an error is published with a failure
exactly if in the compiler's part an error tag *says something* (`Mark.Says`): a character that is
not blank stands behind it, before the next tag.

* `mem_bodiesBetween`: a block is a mark with what stands between it and the next one;
* `speaks_iff`: a block says something exactly if its mark does;
* `errors_parse_iff`: the findings of a text have an error exactly if one of its error tags says
  something.
-/

import ShaderForge.Proofs.PrimaryConfigs
import ShaderForge.Proofs.TagOccurrences

namespace ShaderForge

open Text (isBlank dropBlank trimChars)

/-! ## Part 1 — tags that say something -/

/-- **A tag says something**: before the next one, a character that is not blank stands behind
it. -/
def Mark.Says (mark : Mark) (text : List Char) : Prop :=
  ∃ place c, mark.stop ≤ place ∧ text[place]? = some c ∧ isBlank c = false ∧
    ∀ other : Mark, other.StandsIn text → mark.stop ≤ other.start → place < other.start

/-- Nothing is left of a text without its blanks only if it is blank. -/
theorem trimChars_eq_nil_iff {text : List Char} :
    trimChars text = [] ↔ ∀ c ∈ text, isBlank c = true := by
  have whole : text.takeWhile isBlank ++ dropBlank text = text := List.takeWhile_append_dropWhile
  have front : ∀ c ∈ text.takeWhile isBlank, isBlank c = true :=
    List.all_eq_true.mp List.all_takeWhile
  rw [trimChars, Text.dropBlankEnd, List.reverse_eq_nil_iff, List.dropWhile_eq_nil_iff]
  constructor
  · intro blank c among
    rw [← whole] at among
    exact (List.mem_append.mp among).elim (front c) fun behind =>
      blank c (List.mem_reverse.mpr behind)
  · intro blank c among
    exact blank c ((List.dropWhile_sublist _).subset (List.mem_reverse.mp among))

/-- A block is a mark with what stands between it and the next one. -/
theorem mem_bodiesBetween {text : List Char} {marks : List Mark} {block : Block} :
    block ∈ bodiesBetween text marks ↔ ∃ earlier mark later, marks = earlier ++ mark :: later ∧
      block = ⟨mark.tag, (text.take (firstStart text later)).drop mark.stop⟩ := by
  induction marks with
  | nil => simp [bodiesBetween]
  | cons mark marks ih =>
    rw [bodiesBetween, List.mem_cons, ih]
    constructor
    · rintro (same | ⟨earlier, other, later, rfl, same⟩)
      · exact ⟨[], mark, marks, rfl, same⟩
      · exact ⟨mark :: earlier, other, later, rfl, same⟩
    · rintro ⟨earlier, other, later, split, same⟩
      cases earlier with
      | nil =>
        cases split
        exact .inl same
      | cons first earlier =>
        cases split
        exact .inr ⟨earlier, other, later, rfl, same⟩

theorem mem_between_iff {text : List Char} {start stop : Nat} {c : Char} :
    c ∈ (text.take stop).drop start ↔ ∃ place, start ≤ place ∧ place < stop ∧
      text[place]? = some c := by
  rw [List.mem_iff_getElem?]
  constructor
  · rintro ⟨offset, found⟩
    rw [List.getElem?_drop, List.getElem?_take] at found
    split at found
    · next before => exact ⟨start + offset, Nat.le_add_right _ _, before, found⟩
    · cases found
  · rintro ⟨place, behind, before, found⟩
    refine ⟨place - start, ?_⟩
    rw [List.getElem?_drop, List.getElem?_take, Nat.add_sub_cancel' behind, if_pos before, found]

/-- Behind a mark, the next ones are those that begin there. -/
theorem CutAt.before_next_iff {text : List Char} {marks earlier later : List Mark} {mark : Mark}
    (exact : CutAt text marks) (split : marks = earlier ++ mark :: later) {place : Nat} {c : Char}
    (found : text[place]? = some c) :
    place < firstStart text later ↔
      ∀ other : Mark, other.StandsIn text → mark.stop ≤ other.start → place < other.start := by
  have stands : ∀ {other}, other ∈ marks → other.StandsIn text := (exact.exact _).mp
  have apart := exact.apart
  rw [split, List.pairwise_append, List.pairwise_cons] at apart
  obtain ⟨-, ⟨behind, ordered⟩, before⟩ := apart
  subst split
  constructor
  · intro first other there follows
    rcases List.mem_append.mp ((exact.exact other).mpr there) with old | rest
    · -- An earlier mark does not begin behind this one.
      have ends := before other old mark List.mem_cons_self
      have forth := there.start_lt_stop
      have here := (stands (List.mem_append_right _ List.mem_cons_self)).start_lt_stop
      omega
    · rcases List.mem_cons.mp rest with rfl | later'
      · have here := there.start_lt_stop
        omega
      · cases later with
        | nil => cases later'
        | cons next others =>
          rcases List.mem_cons.mp later' with rfl | last
          · exact first
          · have forth := (stands (List.mem_append_right _
              (List.mem_cons_of_mem _ List.mem_cons_self))).start_lt_stop
            have ends := List.rel_of_pairwise_cons ordered last
            have begins : place < next.start := first
            omega
  · intro clear
    cases later with
    | nil => exact (List.getElem?_eq_some_iff.mp found).1
    | cons next others =>
      exact clear next (stands (List.mem_append_right _ (List.mem_cons_of_mem _
        List.mem_cons_self))) (behind next List.mem_cons_self)

/-- **A block says something exactly if its tag does.** -/
theorem speaks_iff {text : List Char} {tag : Tag} :
    (∃ block ∈ (cut text).2, block.tag = tag ∧ trimChars block.body ≠ []) ↔
      ∃ mark : Mark, mark.StandsIn text ∧ mark.tag = tag ∧ mark.Says text := by
  obtain ⟨marks, exact⟩ := exists_cutAt text
  have speaks : ∀ {body : List Char}, trimChars body ≠ [] ↔ ∃ c ∈ body, isBlank c = false := by
    intro body
    simp [trimChars_eq_nil_iff]
  rw [exact.bodies]
  constructor
  · rintro ⟨block, among, rfl, spoken⟩
    obtain ⟨earlier, mark, later, split, rfl⟩ := mem_bodiesBetween.mp among
    obtain ⟨c, inside, solid⟩ := speaks.mp spoken
    obtain ⟨place, behind, before, found⟩ := mem_between_iff.mp inside
    refine ⟨mark, (exact.exact mark).mp ?_, rfl, place, c, behind, found, solid,
      (exact.before_next_iff split found).mp before⟩
    rw [split]
    exact List.mem_append_right _ List.mem_cons_self
  · rintro ⟨mark, stands, rfl, place, c, behind, found, solid, before⟩
    obtain ⟨earlier, later, split⟩ := List.append_of_mem ((exact.exact mark).mpr stands)
    refine ⟨_, mem_bodiesBetween.mpr ⟨earlier, mark, later, split, rfl⟩, rfl,
      speaks.mpr ⟨c, ?_, solid⟩⟩
    exact mem_between_iff.mpr
      ⟨place, behind, (exact.before_next_iff split found).mpr before, found⟩

/-! ## Part 2 — errors among the findings -/

/-- A block is an error exactly if it has the tag of errors and says something. -/
theorem OutputReader.isError_iff {reader : OutputReader} {block : Block} :
    (∃ diagnostic, reader.ofBlock? block = some diagnostic ∧ diagnostic.isError = true) ↔
      block.tag = .error ∧ block.body ≠ [] := by
  constructor
  · rintro ⟨diagnostic, found, grave⟩
    refine ⟨tag_of_error found (of_decide_eq_true grave), fun silent => ?_⟩
    rw [OutputReader.ofBlock?, silent] at found
    split at found <;> cases found
  · rintro ⟨tagged, spoken⟩
    refine ⟨reader.diagnosticOf .error block.body, ?_, rfl⟩
    rw [OutputReader.ofBlock?, tagged]
    exact if_neg fun silent => spoken (List.isEmpty_iff.mp silent)

/-- **The findings of a text have an error** exactly if one of its error tags says something. -/
theorem errors_parse_iff (reader : OutputReader) (text : String) :
    0 < errorCount (reader.parse text) ↔ ∃ mark : Mark,
      mark.StandsIn text.toList ∧ mark.tag = .error ∧ mark.Says text.toList := by
  rw [← speaks_iff, errorCount, List.countP_pos_iff]
  constructor
  · rintro ⟨diagnostic, member, grave⟩
    obtain ⟨block, among, found⟩ := List.mem_filterMap.mp member
    obtain ⟨whole, there, rfl⟩ := List.mem_map.mp among
    exact ⟨whole, there, OutputReader.isError_iff.mp ⟨diagnostic, found, grave⟩⟩
  · rintro ⟨block, there, tagged, spoken⟩
    obtain ⟨diagnostic, found, grave⟩ := (@OutputReader.isError_iff reader block.trimmed).mpr
      ⟨tagged, spoken⟩
    exact ⟨diagnostic, List.mem_filterMap.mpr ⟨_, List.mem_map_of_mem there, found⟩, grave⟩

/-! ## Part 3 — failed jobs -/

variable {hooks : Hooks} {world : World}

/-- **A job that fails by its log publishes an error exactly if the compiler's part of that log has
an error tag that says something.** The log has an error tag somewhere, and is gone. -/
theorem generate_diagnoses {generator : Generator} {request : JobRequest} {service : Service}
    {log : Path} {ended : Session}
    (selected : Backend.select generator.settings generator.resolver generator.timeout =
      .ok (.remote service))
    (failed : generator.generate request hooks world = (.error (.generationFailed log), ended)) :
    ∃ path input unpacked primary content,
      Job.requestedPath generator.resolver request.path = .ok path ∧
      JobInput.resolve world path = .ok input ∧
      log = input.root.below logName ∧
      Publishes hooks generator.resolver input world unpacked primary (some content) ended ∧
      HasErrorTag content ∧
      ended.world.read log = .error .notFound ∧
      (0 < ended.findings.errors ↔ ∃ mark : Mark,
        mark.StandsIn (outputBlock content).toList ∧ mark.tag = .error ∧
          mark.Says (outputBlock content).toList) := by
  obtain ⟨path, input, unpacked, primary, found, requested, resolved, published, fails⟩ :=
    generate_publishes selected failed ⟨⟩
  obtain ⟨rfl, content, rfl, tagged⟩ := fails log rfl
  refine ⟨path, input, unpacked, primary, content, requested, resolved, rfl, published, tagged,
    published.taken.absent published.found, ?_⟩
  rw [published.findings, DiagnosticCollection.errors_replace]
  exact errors_parse_iff _ _

/-- The service sends a log with an error that names no file. -/
theorem generate_diagnoses_lost :
    let ended := smallGenerator.generate ⟨"/job", some "cpp"⟩ (lostHooks "z.sl.json") smallWorld
    ended.1 = .error (.generationFailed (Path.below ⟨"/job"⟩ logName)) ∧
      0 < ended.2.findings.errors := by
  intro outcome
  obtain ⟨ended, ran, -, known⟩ := @lost_fails "z.sl.json"
    [⟨"/job/z.sl.json"⟩, ⟨"/job/.starlight.log"⟩] (by decide +kernel) (by decide +kernel)
    (by decide +kernel)
  have same : outcome = _ := ran
  obtain ⟨service, selected⟩ := small_selected
  obtain ⟨path, input, unpacked, primary, content, requested, resolved, -, published, -, -,
    spoken⟩ := generate_diagnoses selected ran
  have asked : Job.requestedPath smallGenerator.resolver "/job" = .ok ⟨"/job"⟩ := by cbv
  rw [asked] at requested
  cases requested
  rw [small_resolve_directory] at resolved
  cases resolved
  obtain ⟨-, logged⟩ := known _ _ _ published
  cases logged
  have whole : (outputBlock "[ERROR] lost").toList = "[ERROR] lost".toList := by decide +kernel
  rw [same]
  refine ⟨rfl, spoken.mpr ⟨⟨0, .error, 7⟩, ?_, rfl, ?_⟩⟩
  · rw [whole]
    exact ⟨[], "ERROR".toList, " lost".toList, by decide, by decide, rfl, rfl⟩
  · rw [whole]
    refine ⟨8, 'l', by decide, by decide, by decide, ?_⟩
    rintro other ⟨before, name, after, split, -, starts, -⟩ behind
    exfalso
    have opens : "[ERROR] lost".toList[other.start]? = some '[' := by
      rw [split, starts, List.getElem?_append_right (Nat.le_refl _), Nat.sub_self]
      rfl
    obtain ⟨inside, -⟩ := List.getElem?_eq_some_iff.mp opens
    have plain : ∀ place, 7 ≤ place → place < 12 → "[ERROR] lost".toList[place]? ≠ some '[' := by
      decide
    exact plain _ behind inside opens

/-- **A failure without an error**: the error tag of the log stands at its end. -/
theorem failure_without_error :
    ¬ ∀ (generator : Generator) (request : JobRequest) (hooks : Hooks) (service : Service)
      (world : World) (log : Path) (ended : Session),
      Backend.select generator.settings generator.resolver generator.timeout =
        .ok (.remote service) →
      generator.generate request hooks world = (.error (.generationFailed log), ended) →
      0 < ended.findings.errors := by
  intro claim
  let archive := Zip.write [(".starlight.log", "an [error]".toUTF8)]
  obtain ⟨ended, ran, -, known⟩ := @answered_fails archive
    [⟨".starlight.log", "an [error]".toUTF8, none⟩] [⟨"/job/.starlight.log"⟩] "an [error]"
    (by decide +kernel) (by decide +kernel) (by decide +kernel)
    ⟨"an ".toList, "error".toList, [], by decide, by decide⟩
  obtain ⟨service, selected⟩ := small_selected
  have errors := claim _ _ _ _ _ _ _ selected ran
  obtain ⟨path, input, unpacked, primary, log, requested, resolved, published, -⟩ :=
    generate_publishes selected ran ⟨⟩
  have asked : Job.requestedPath smallGenerator.resolver "/job" = .ok ⟨"/job"⟩ := by cbv
  rw [asked] at requested
  cases requested
  rw [small_resolve_directory] at resolved
  cases resolved
  obtain ⟨-, rfl⟩ := known _ _ _ published
  have silent : blocks (outputBlock "an [error]") = [⟨.error, []⟩] := by decide +kernel
  rw [published.findings, DiagnosticCollection.errors_replace, OutputReader.findingsOf,
    OutputReader.parse, silent] at errors
  exact Nat.lt_irrefl 0 errors

end ShaderForge

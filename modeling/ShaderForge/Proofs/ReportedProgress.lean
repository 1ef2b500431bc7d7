/-
**What a job reports of its progress.**

A job reports its progress in increments. `Job.Reports` is the law of what a job reports, with how
it ends, and `Reports.bind` its rule for one step after another: what the second step reports comes
after what the first one did.

A stage *fills* a share of the progress (`Job.Fills`): its increments come to that share if it gives
a value, and to no more than a part of it if it fails, for a reason other than what was found. None
of them is negative. Shares of stages add up (`Fills.bind`), and steps that add nothing fill none
(`fills_still`).
-/

import ShaderForge.Proofs.Stages

namespace ShaderForge

variable {α β : Type} {hooks : Hooks} {session : Session} {share : Rat}

/-! ## Part 1 — sums of increments -/

/-- What was reported, one increment and its message after the other. -/
abbrev Progress := List (Rat × Option String)

/-- The increments of what was reported. -/
def Progress.increments (reports : Progress) : List Rat := reports.map Prod.fst

/-- **What the increments come to.** -/
def Progress.gained (reports : Progress) : Rat := reports.increments.sum

/-- **No increment is negative.** -/
def Progress.Forward (reports : Progress) : Prop :=
  ∀ increment ∈ reports.increments, 0 ≤ increment

namespace Progress

variable {reports later : Progress}

theorem increments_append :
    increments (reports ++ later) = reports.increments ++ later.increments :=
  List.map_append

theorem gained_append : gained (reports ++ later) = reports.gained + later.gained := by
  rw [gained, increments_append, List.sum_append]
  rfl

theorem forward_nil : Forward [] := fun _ among => absurd among List.not_mem_nil

theorem Forward.append (forward : reports.Forward) (after : later.Forward) :
    Forward (reports ++ later) := by
  intro increment among
  rw [increments_append] at among
  exact (List.mem_append.mp among).elim (forward increment) (after increment)

theorem Forward.gained_nonneg (forward : reports.Forward) : 0 ≤ reports.gained :=
  List.sum_nonneg forward

/-- **What came later only adds to what was there.** -/
theorem Forward.gained_le (forward : Forward (reports ++ later)) :
    reports.gained ≤ gained (reports ++ later) := by
  have after : later.Forward := fun increment among =>
    forward increment (by rw [increments_append]; exact List.mem_append_right _ among)
  rw [gained_append]
  exact le_add_of_nonneg_right after.gained_nonneg

end Progress

/-- An event that reports no progress. -/
def Event.NoProgress (event : Event) : Prop :=
  ∀ increment message, event ≠ .progressed increment message

/-- An event that adds nothing to the progress. -/
def Event.Still (event : Event) : Prop :=
  ∀ increment message, event = .progressed increment message → increment = 0

namespace Trace

theorem mem_progress {trace : Trace} {report : Rat × Option String}
    (among : report ∈ trace.progress) : .progressed report.1 report.2 ∈ trace := by
  obtain ⟨event, there, shown⟩ := List.mem_filterMap.mp among
  cases event with
  | progressed increment message =>
    cases shown
    exact List.mem_reverse.mp there
  | _ => cases shown

theorem progress_eq_nil {events : Trace} (silent : ∀ event ∈ events, event.NoProgress) :
    events.progress = [] :=
  List.eq_nil_iff_forall_not_mem.mpr fun _ among => silent _ (mem_progress among) _ _ rfl

theorem increments_still {events : Trace} (still : ∀ event ∈ events, event.Still) :
    ∀ increment ∈ Progress.increments events.progress, increment = 0 := by
  intro increment among
  obtain ⟨report, there, rfl⟩ := List.mem_map.mp among
  exact still _ (mem_progress there) _ _ rfl

end Trace

/-! ## Part 2 — what a job reports -/

/-- **An error that the findings are the cause of**: all work was done before. -/
def JobError.isVerdict : JobError → Bool
  | generationFailed _ | compilerErrors _ => true
  | _ => false

namespace JobError

variable {error : JobError}

theorem isVerdict_of_isEarly (early : error.isEarly = true) : error.isVerdict = false := by
  cases error with
  | generationFailed log => cases early
  | compilerErrors count => cases early
  | _ => rfl

theorem isVerdict_of_isLate (late : error.isLate = true) : error.isVerdict = false := by
  cases error with
  | generationFailed log => cases late
  | compilerErrors count => cases late
  | _ => rfl

theorem isVerdict_of_isOfRun (stopped : error.isOfRun = true) : error.isVerdict = false := by
  cases error with
  | generationFailed log => cases stopped
  | compilerErrors count => cases stopped
  | _ => rfl

/-- Nor is a cancellation, where a job fails only in some ways. -/
theorem isVerdict_of {kind : JobError → Prop} (known : kind error ∨ error = .canceled)
    (unjudged : ∀ error, kind error → error.isVerdict = false) : error.isVerdict = false := by
  rcases known with known | rfl
  · exact unjudged error known
  · rfl

end JobError

namespace Job

/-- **A job reports progress**, and how it ends goes with what it reported. -/
def Reports (ends : Except JobError α → Progress → Prop) (hooks : Hooks) (job : Job α) : Prop :=
  ∀ session, ∃ events, (job.perform hooks session).2.trace = events ++ session.trace ∧
    ends (job.perform hooks session).1 (Trace.progress events)

section Reports

variable {job : Job α} {next : α → Job β} {ends : Except JobError α → Progress → Prop}
  {whole : Except JobError β → Progress → Prop}

theorem Reports.mono {weaker : Except JobError α → Progress → Prop} (law : Reports ends hooks job)
    (follows : ∀ outcome reports, ends outcome reports → weaker outcome reports) :
    Reports weaker hooks job := by
  intro session
  obtain ⟨events, traced, holds⟩ := law session
  exact ⟨events, traced, follows _ _ holds⟩

/-- **One step after another**: what the second reports comes after what the first did. -/
theorem Reports.bind (first : Reports ends hooks job)
    (stops : ∀ error reports, ends (.error error) reports → whole (.error error) reports)
    (goes : ∀ value reports, ends (.ok value) reports →
      Reports (fun outcome later => whole outcome (reports ++ later)) hooks (next value)) :
    Reports whole hooks (job >>= next) := by
  intro session
  obtain ⟨events, traced, holds⟩ := first session
  rcases ran : job.perform hooks session with ⟨outcome, middle⟩
  rw [ran] at traced holds
  cases outcome with
  | error error =>
    rw [perform_bind_error ran]
    exact ⟨events, traced, stops error _ holds⟩
  | ok value =>
    rw [perform_bind_ok ran]
    obtain ⟨later, traced', holds'⟩ := goes value _ holds middle
    refine ⟨later ++ events, ?_, ?_⟩
    · rw [traced', traced, List.append_assoc]
    · rw [Trace.progress_append]
      exact holds'

/-- A step that reports nothing. -/
theorem reports_nothing (adds : Adds Event.NoProgress hooks job) :
    Reports (fun _ reports => reports = []) hooks job := by
  intro session
  obtain ⟨events, traced, silent⟩ := adds session
  exact ⟨events, traced, Trace.progress_eq_nil silent⟩

/-- **After a step that reports nothing** there is only what follows. -/
theorem Reports.after (adds : Adds Event.NoProgress hooks job)
    (stops : ∀ error, whole (.error error) [])
    (goes : ∀ value, Reports whole hooks (next value)) : Reports whole hooks (job >>= next) := by
  refine (reports_nothing adds).bind ?_ ?_
  · rintro error _ rfl
    exact stops error
  · rintro value _ rfl
    exact goes value

/-- What is known of how a job fails goes with what it reports. -/
theorem Reports.failing {kind : JobError → Prop} (law : Reports ends hooks job)
    (fails : ∀ session, FailsAs kind (job.perform hooks session).1) :
    Reports (fun outcome reports => ends outcome reports ∧ FailsAs kind outcome) hooks job := by
  intro session
  obtain ⟨events, traced, holds⟩ := law session
  exact ⟨events, traced, holds, fails session⟩

/-- The end of a job as a value. -/
theorem Reports.attempt (law : Reports ends hooks job) :
    Reports (fun outcome reports => ∃ result, outcome = .ok result ∧ ends result reports) hooks
      job.attempt := by
  intro session
  obtain ⟨events, traced, holds⟩ := law session
  exact ⟨events, traced, _, rfl, holds⟩

theorem reports_pure {value : α} (holds : ends (.ok value) []) : Reports ends hooks (pure value) :=
  fun _ => ⟨[], rfl, holds⟩

theorem reports_throw {error : JobError} (holds : ends (.error error) []) :
    Reports ends hooks (throw error) :=
  fun _ => ⟨[], rfl, holds⟩

end Reports

/-! ## Part 3 — shares of the progress -/

/-- **A share is filled**: the increments come to it if there is a value, and to no more than a part
of it if not. -/
structure Filled (part share : Rat) (outcome : Except JobError α) (reports : Progress) : Prop where
  forward : reports.Forward
  given : ∀ value, outcome = .ok value → reports.gained = share
  stopped : ∀ error, outcome = .error error → reports.gained ≤ part ∧ error.isVerdict = false

/-- **A job fills a share of the progress.** -/
abbrev Fills (hooks : Hooks) (part share : Rat) (job : Job α) : Prop :=
  Reports (Filled part share) hooks job

section Fills

variable {job : Job α} {next : α → Job β} {part rest more increment : Rat}

/-- A step that adds nothing fills no share. -/
theorem fills_still {kind : JobError → Prop} (adds : Adds Event.Still hooks job)
    (fails : ∀ session, FailsAs kind (job.perform hooks session).1)
    (unjudged : ∀ error, kind error → error.isVerdict = false) : Fills hooks 0 0 job := by
  intro session
  obtain ⟨events, traced, still⟩ := adds session
  have zeros := Trace.increments_still still
  have nothing : Progress.gained events.progress = 0 := List.sum_eq_zero zeros
  exact ⟨events, traced, fun increment among => (zeros increment among).ge, fun _ _ => nothing,
    fun error same => ⟨nothing.le, JobError.isVerdict_of (fails session error same) unjudged⟩⟩

/-- **Shares add up.** -/
theorem Fills.bind (first : Fills hooks part share job)
    (second : ∀ value, Fills hooks rest more (next value)) (within : part ≤ share + rest) :
    Fills hooks (share + rest) (share + more) (job >>= next) := by
  refine Reports.bind first (fun error reports filled => ?_) fun value reports filled => ?_
  · refine ⟨filled.forward, fun _ same => (nomatch same), ?_⟩
    rintro other ⟨⟩
    obtain ⟨some_part, unjudged⟩ := filled.stopped error rfl
    exact ⟨some_part.trans within, unjudged⟩
  · have before := filled.given value rfl
    refine (second value).mono fun outcome later after => ⟨filled.forward.append after.forward,
      fun result same => ?_, fun error same => ?_⟩
    · rw [Progress.gained_append, before, after.given result same]
    · obtain ⟨some_part, unjudged⟩ := after.stopped error same
      rw [Progress.gained_append, before]
      exact ⟨add_le_add_right some_part share, unjudged⟩

theorem Fills.after (first : Fills hooks 0 0 job)
    (second : ∀ value, Fills hooks part share (next value)) (forward : 0 ≤ part) :
    Fills hooks part share (job >>= next) := by
  have both := first.bind second (forward.trans (zero_add part).ge)
  rwa [zero_add, zero_add] at both

theorem Fills.within (fills : Fills hooks part share job) (wider : part ≤ rest) :
    Fills hooks rest share job :=
  Reports.mono fills fun _ _ filled => ⟨filled.forward, filled.given, fun error same =>
    ⟨(filled.stopped error same).1.trans wider, (filled.stopped error same).2⟩⟩

theorem fills_pure (value : α) : Fills hooks 0 0 (pure value) :=
  reports_pure ⟨Progress.forward_nil, fun _ _ => rfl, fun _ same => nomatch same⟩

theorem fills_throw {error : JobError} (unjudged : error.isVerdict = false) :
    Fills hooks 0 0 (throw error : Job α) := by
  refine reports_throw ⟨Progress.forward_nil, fun _ same => (nomatch same), ?_⟩
  rintro other ⟨⟩
  exact ⟨le_rfl, unjudged⟩

/-- **Progress that is reported fills its share**; nothing can go wrong then. -/
theorem fills_last (forward : 0 ≤ increment) (message : Option String) (value : α) :
    Fills hooks 0 increment (progress increment message >>= fun _ => pure value) := by
  intro session
  rw [perform_bind_ok (perform_progress forward message), perform_pure]
  refine ⟨[.progressed increment message], rfl, fun other among => ?_, fun _ _ => ?_,
    fun _ same => nomatch same⟩
  · rw [List.mem_singleton.mp among]
    exact forward
  · exact add_zero increment

theorem fills_progress (forward : 0 ≤ increment) (message : Option String) :
    Fills hooks 0 increment (progress increment message) := by
  rw [← bind_pure_unit (x := progress increment message)]
  exact fills_last forward message _

end Fills

end Job

end ShaderForge

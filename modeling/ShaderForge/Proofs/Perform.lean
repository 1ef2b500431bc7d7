/-
**What an action of a job gives.**

A job is put together from few kinds of steps. Each has one law here that says what it gives and
which session it leaves; whatever is proved about jobs is proved through these laws, and nothing
else opens an action.

A job whose token never fires (`Hooks.Quiet`) passes every checkpoint. All that its looks at the
token leave behind are events (`Session.looked`), so waiting for work comes to the work itself
(`perform_awaited`, `perform_guarded`).

Where it does not matter what a job comes to, but only which kinds of events it can add to the
trace, `Job.Adds` is put together from its steps in the same way.
-/

import ShaderForge.Job.Basic

namespace ShaderForge

/-- **The token never fires.** -/
def Hooks.Quiet (hooks : Hooks) : Prop := ∀ trace, hooks.token.fired trace = false

/-- A session in which one more event has happened. -/
def Session.noting (session : Session) (event : Event) : Session :=
  { session with trace := event :: session.trace }

/-- A session in which the token was looked at once more. -/
def Session.looked (session : Session) : Session := session.noting .looked

@[simp] theorem Session.noting_world (session : Session) (event : Event) :
    (session.noting event).world = session.world := rfl

@[simp] theorem Session.noting_trace (session : Session) (event : Event) :
    (session.noting event).trace = event :: session.trace := rfl

@[simp] theorem Session.noting_findings (session : Session) (event : Event) :
    (session.noting event).findings = session.findings := rfl

@[simp] theorem Session.looked_world (session : Session) : session.looked.world = session.world :=
  rfl

@[simp] theorem Session.looked_trace (session : Session) :
    session.looked.trace = .looked :: session.trace := rfl

@[simp] theorem Session.looked_findings (session : Session) :
    session.looked.findings = session.findings := rfl

/-- The events of the lines of a text that are logged, latest first. -/
def Trace.printed (text : String) : Trace :=
  (((Text.lines text).filter fun line => !Text.isBlankText line).map Event.logged).reverse

namespace Job

variable {α β : Type} {hooks : Hooks} {session after : Session}

/-! ## Part 1 — one step after another -/

/-- **A job and what follows it**: an error ends both. -/
theorem perform_bind (job : Job α) (next : α → Job β) :
    (job >>= next).perform hooks session =
      match job.perform hooks session with
      | (.ok value, after) => (next value).perform hooks after
      | (.error error, after) => (.error error, after) := by
  unfold perform
  rw [ReaderT.run_bind, ExceptT.run_bind, StateT.run_bind]
  show (match (job.run hooks).run.run session with | (outcome, later) => _) = _
  cases found : (job.run hooks).run.run session with
  | mk outcome later =>
    cases outcome with
    | ok value => rfl
    | error error => rfl

theorem perform_bind_ok {job : Job α} {next : α → Job β} {value : α}
    (given : job.perform hooks session = (.ok value, after)) :
    (job >>= next).perform hooks session = (next value).perform hooks after := by
  rw [perform_bind, given]

theorem perform_bind_error {job : Job α} {next : α → Job β} {error : JobError}
    (given : job.perform hooks session = (.error error, after)) :
    (job >>= next).perform hooks session = (.error error, after) := by
  rw [perform_bind, given]

/-- A result of two steps comes from a result of the first. -/
theorem perform_bind_gives {job : Job α} {next : α → Job β} {result : β}
    (given : ((job >>= next).perform hooks session).1 = .ok result) :
    ∃ value middle, job.perform hooks session = (.ok value, middle) ∧
      ((next value).perform hooks middle).1 = .ok result := by
  rw [perform_bind] at given
  split at given
  · next value middle ran => exact ⟨value, middle, ran, given⟩
  · cases given

/-- Steps that give a result have each given one, and left the session that they did. -/
theorem perform_bind_leaves {job : Job α} {next : α → Job β} {result : β}
    (ran : (job >>= next).perform hooks session = (.ok result, after)) :
    ∃ value middle, job.perform hooks session = (.ok value, middle) ∧
      (next value).perform hooks middle = (.ok result, after) := by
  rw [perform_bind] at ran
  split at ran
  · next value middle stepped => exact ⟨value, middle, stepped, ran⟩
  · cases ran

@[simp] theorem perform_pure (value : α) :
    (pure value : Job α).perform hooks session = (.ok value, session) := rfl

@[simp] theorem perform_throw (error : JobError) :
    (throw error : Job α).perform hooks session = (.error error, session) := rfl

@[simp] theorem perform_get : (get : Job Session).perform hooks session = (.ok session, session) :=
  rfl

@[simp] theorem perform_set (later : Session) :
    (set later : Job PUnit).perform hooks session = (.ok ⟨⟩, later) := rfl

@[simp] theorem perform_read : (read : Job Hooks).perform hooks session = (.ok hooks, session) :=
  rfl

@[simp] theorem perform_attempt (job : Job α) :
    job.attempt.perform hooks session =
      (.ok (job.perform hooks session).1, (job.perform hooks session).2) := rfl

theorem perform_settle (outcome : Except JobError α) :
    (settle outcome).perform hooks session = (outcome, session) := by
  cases outcome with
  | ok value => rfl
  | error error => rfl

theorem eq_canceled {outcome : Except JobError α}
    (canceled : (match outcome with | .error error => error.isCanceled | .ok _ => false) = true) :
    outcome = .error .canceled := by
  cases outcome with
  | ok paths => cases canceled
  | error error =>
    cases error with
    | canceled => rfl
    | _ => cases canceled

/-- What a job gives can be settled before what follows it. -/
theorem perform_bind_settle {job : Job α} {next : α → Job β} {outcome : Except JobError α}
    (given : job.perform hooks session = (outcome, after)) :
    (job >>= next).perform hooks session = (settle outcome >>= next).perform hooks after := by
  rw [perform_bind, given, perform_bind, perform_settle]

/-! ## Part 2 — events, files and findings -/

@[simp] theorem perform_emit (event : Event) :
    (emit event).perform hooks session = (.ok ⟨⟩, session.noting event) := rfl

@[simp] theorem perform_log (line : String) :
    (log line).perform hooks session = (.ok ⟨⟩, session.noting (.logged line)) := rfl

@[simp] theorem perform_choose (choices : List String) :
    (choose choices).perform hooks session =
      (.ok (hooks.prompt choices), session.noting (.prompted choices)) := rfl

@[simp] theorem perform_publish (diagnostics : List Diagnostic) :
    (publish diagnostics).perform hooks session =
      (.ok ⟨⟩, { session with findings := session.findings.replace diagnostics }) := rfl

@[simp] theorem perform_clearFindings :
    clearFindings.perform hooks session =
      (.ok ⟨⟩, { session with findings := session.findings.clear }) := rfl

theorem perform_forM_log (lines : List String) :
    (lines.forM log : Job PUnit).perform hooks session =
      (.ok ⟨⟩, { session with trace := (lines.map Event.logged).reverse ++ session.trace }) := by
  induction lines generalizing session with
  | nil => rfl
  | cons line lines ih =>
    show (log line >>= fun _ => (lines.forM log : Job PUnit)).perform hooks session = _
    rw [perform_bind_ok (perform_log line), ih, List.map_cons, List.reverse_cons, List.append_assoc]
    rfl

/-- The lines of a text that are not blank are noted one after the other. -/
theorem perform_logLines (text : String) :
    (logLines text).perform hooks session =
      (.ok ⟨⟩, { session with trace := Trace.printed text ++ session.trace }) :=
  perform_forM_log _

/-- Progress that does not go back is noted as it is. -/
theorem perform_progress {increment : Rat} (forward : 0 ≤ increment) (message : Option String) :
    (progress increment message).perform hooks session =
      (.ok ⟨⟩, session.noting (.progressed increment message)) := by
  rw [progress, if_neg (Rat.not_lt.mpr forward), perform_emit]

/-- A question about the files changes nothing. -/
theorem perform_inspect (question : World → Except JobError α) :
    (inspect question).perform hooks session = (question session.world, session) := by
  show (get >>= fun current => settle (question current.world)).perform hooks session = _
  rw [perform_bind_ok perform_get, perform_settle]

/-- An action on the files leaves the world that it leaves, whatever it comes to. -/
theorem perform_onDisk (action : Disk α) :
    (onDisk action).perform hooks session =
      (liftIo (action.run.run session.world).1,
        { session with world := (action.run.run session.world).2 }) := by
  unfold onDisk
  rw [perform_bind_ok perform_get]
  rcases action.run.run session.world with ⟨outcome, world⟩
  rw [perform_bind_ok (perform_set _), perform_settle]

/-! ## Part 3 — looks at the token -/

/-- A look says whether the token has fired. -/
theorem perform_look_eq :
    look.perform hooks session =
      (.ok (hooks.token.fired session.looked.trace), session.looked) := rfl

/-- A checkpoint looks at the token and ends the job if it has fired. -/
theorem perform_checkpoint_eq :
    checkpoint.perform hooks session =
      (if hooks.token.fired session.looked.trace = true then .error .canceled else .ok ⟨⟩,
        session.looked) := by
  have whole : checkpoint.perform hooks session =
      ((if hooks.token.fired session.looked.trace = true then throw .canceled
        else pure PUnit.unit : Job PUnit)).perform hooks session.looked :=
    perform_bind_ok perform_look_eq
  rw [whole]
  split <;> rfl

theorem checkpoint_cases :
    checkpoint.perform hooks session = (.error .canceled, session.looked) ∨
      checkpoint.perform hooks session = (.ok ⟨⟩, session.looked) := by
  rw [perform_checkpoint_eq]
  by_cases fired : hooks.token.fired session.looked.trace = true
  · rw [if_pos fired]
    exact .inl rfl
  · rw [if_neg fired]
    exact .inr rfl

/-- A result of work that is waited for is one of the work. -/
theorem perform_guarded_gives {job : Job α} {value : α}
    (given : ((guarded job).perform hooks session).1 = .ok value) :
    (job.perform hooks session.looked).1 = .ok value := by
  obtain ⟨_, looked, passed, waited⟩ := perform_bind_gives given
  obtain ⟨outcome, after, ran, counted⟩ := perform_bind_gives waited
  obtain ⟨_, _, _, ends⟩ := perform_bind_gives counted
  rw [perform_settle] at ends
  rcases @checkpoint_cases hooks session with fired | through
  · rw [fired] at passed
    cases passed
  · rw [through] at passed
    cases passed
    rw [perform_attempt] at ran
    cases ran
    exact ends

/-! ## Part 4 — a token that never fires -/

section Quiet

variable (quiet : hooks.Quiet)

include quiet

theorem perform_look : look.perform hooks session = (.ok false, session.looked) := by
  rw [perform_look_eq, quiet]

/-- **A checkpoint is passed.** -/
theorem perform_checkpoint : checkpoint.perform hooks session = (.ok ⟨⟩, session.looked) := by
  show (look >>= fun fired => if fired then throw .canceled else pure PUnit.unit).perform
    hooks session = _
  rw [perform_bind_ok (perform_look quiet)]
  rfl

/-- **Work that is waited for counts**, and the token is looked at after it. -/
theorem perform_awaited (work : Job α) :
    (awaited work).perform hooks session =
      ((work.perform hooks session).1, (work.perform hooks session).2.looked) := by
  show (work.attempt >>= fun outcome => checkpoint >>= fun _ => settle outcome).perform
    hooks session = _
  rw [perform_bind_ok (perform_attempt work), perform_bind_ok (perform_checkpoint quiet),
    perform_settle]

/-- **Guarded work counts**, and the token is looked at before and after it. -/
theorem perform_guarded (work : Job α) :
    (guarded work).perform hooks session =
      ((work.perform hooks session.looked).1, (work.perform hooks session.looked).2.looked) := by
  show (checkpoint >>= fun _ => work.awaited).perform hooks session = _
  rw [perform_bind_ok (perform_checkpoint quiet), perform_awaited quiet]

/-- A guarded question about the files leaves two looks at the token. -/
theorem perform_guarded_inspect (question : World → Except JobError α) :
    (guarded (inspect question)).perform hooks session =
      (question session.world, session.looked.looked) := by
  rw [perform_guarded quiet, perform_inspect]
  rfl

end Quiet

/-! ## Part 5 — what a job adds to the trace -/

/-- **A job only adds events of a kind to the trace**, whatever it comes to. -/
def Adds (allowed : Event → Prop) (hooks : Hooks) (job : Job α) : Prop :=
  ∀ session, ∃ events, (job.perform hooks session).2.trace = events ++ session.trace ∧
    ∀ event ∈ events, allowed event

section Adds

variable {allowed : Event → Prop} {job : Job α} {next : α → Job β}

theorem Adds.of_trace_eq
    (same : ∀ session, (job.perform hooks session).2.trace = session.trace) :
    Adds allowed hooks job :=
  fun session => ⟨[], same session, fun _ member => absurd member List.not_mem_nil⟩

theorem Adds.mono {wider : Event → Prop} (adds : Adds allowed hooks job)
    (fits : ∀ event, allowed event → wider event) : Adds wider hooks job := by
  intro session
  obtain ⟨events, traced, kind⟩ := adds session
  exact ⟨events, traced, fun event member => fits event (kind event member)⟩

/-- **What two steps add is what they add one after the other.** Of the second step only what it
does with a value of the first one counts. -/
theorem Adds.bind_given (first : Adds allowed hooks job)
    (second : ∀ value, (∃ session, (job.perform hooks session).1 = .ok value) →
      Adds allowed hooks (next value)) : Adds allowed hooks (job >>= next) := by
  intro session
  obtain ⟨events, traced, kind⟩ := first session
  rw [perform_bind]
  split
  · next value after given =>
    rw [given] at traced
    obtain ⟨later, traced', kind'⟩ := second value ⟨session, by rw [given]⟩ after
    refine ⟨later ++ events, ?_, fun event member => ?_⟩
    · rw [traced', traced, List.append_assoc]
    · rcases List.mem_append.mp member with new | old
      · exact kind' event new
      · exact kind event old
  · next error after given =>
    rw [given] at traced
    exact ⟨events, traced, kind⟩

theorem Adds.bind (first : Adds allowed hooks job)
    (second : ∀ value, Adds allowed hooks (next value)) : Adds allowed hooks (job >>= next) :=
  first.bind_given fun value _ => second value

theorem adds_pure (value : α) : Adds allowed hooks (pure value) := Adds.of_trace_eq fun _ => rfl

theorem adds_throw (error : JobError) : Adds allowed hooks (throw error : Job α) :=
  Adds.of_trace_eq fun _ => rfl

theorem adds_settle (outcome : Except JobError α) : Adds allowed hooks (settle outcome) :=
  Adds.of_trace_eq fun session => by rw [perform_settle]

theorem adds_inspect (question : World → Except JobError α) :
    Adds allowed hooks (inspect question) :=
  Adds.of_trace_eq fun session => by rw [perform_inspect]

theorem adds_onDisk (action : Disk α) : Adds allowed hooks (onDisk action) :=
  Adds.of_trace_eq fun session => by rw [perform_onDisk]

theorem adds_publish (diagnostics : List Diagnostic) :
    Adds allowed hooks (publish diagnostics) :=
  Adds.of_trace_eq fun _ => rfl

/-- A step that notes one event. -/
theorem Adds.of_noting {event : Event} (fits : allowed event)
    (notes : ∀ session, (job.perform hooks session).2.trace = event :: session.trace) :
    Adds allowed hooks job :=
  fun session => ⟨[event], notes session, fun _ member => List.mem_singleton.mp member ▸ fits⟩

theorem adds_emit {event : Event} (fits : allowed event) : Adds allowed hooks (emit event) :=
  Adds.of_noting fits fun _ => rfl

theorem adds_progress (fits : ∀ increment message, allowed (.progressed increment message))
    (increment : Rat) (message : Option String) : Adds allowed hooks (progress increment message) :=
  adds_emit (fits _ _)

theorem Adds.attempt (adds : Adds allowed hooks job) : Adds allowed hooks job.attempt := adds

theorem adds_checkpoint (looks : allowed .looked) : Adds allowed hooks checkpoint := by
  have look : Adds allowed hooks look :=
    (adds_emit looks).bind fun _ => Adds.of_trace_eq fun _ => rfl
  refine look.bind fun fired => ?_
  cases fired with
  | true => exact adds_throw _
  | false => exact adds_pure _

theorem Adds.awaited (looks : allowed .looked) (adds : Adds allowed hooks job) :
    Adds allowed hooks job.awaited :=
  adds.attempt.bind fun outcome => (adds_checkpoint looks).bind fun _ => adds_settle outcome

theorem Adds.guarded (looks : allowed .looked) (adds : Adds allowed hooks job) :
    Adds allowed hooks job.guarded :=
  (adds_checkpoint looks).bind fun _ => adds.awaited looks

theorem adds_logLines (logs : ∀ line, allowed (.logged line)) (text : String) :
    Adds allowed hooks (logLines text) := by
  intro session
  refine ⟨Trace.printed text, by rw [perform_logLines], fun event member => ?_⟩
  obtain ⟨line, -, rfl⟩ := List.mem_map.mp (List.mem_reverse.mp member)
  exact logs line

end Adds

end Job

end ShaderForge

/-
**What a step of a job can do, whatever the token does.**

A job meets its token at every look, and the token may have fired at any of them. `HeedsAt` is the
law of a job at a session: what holds of its outcome and of the session that it leaves, and with it
the three rules by which every job heeds its token.

* It ends as canceled only if the token fired.
* Work is started elsewhere, a run of the compiler or a request, only while the token has not fired
  (`Token.Respected`).
* The compiler and the service are not even asked once the token has fired: what they would do then
  changes nothing (`Hooks.Until`).

Laws of steps make up the law of a job (`HeedsAt.bind`). Most steps only wait, ask or show something
(`Idles`): they leave the files and the findings as they are and start no work.
-/

import ShaderForge.Proofs.Perform

namespace ShaderForge

variable {hooks other : Hooks} {session after : Session}

/-! ## Part 1 — work and the token -/

/-- Whether an event starts work elsewhere. -/
def Event.isWork : Event → Bool
  | .started _ | .sent _ => true
  | _ => false

/-- Lines that are logged start no work. -/
theorem Trace.printed_idle {text : String} {event : Event} (among : event ∈ Trace.printed text) :
    event.isWork = false := by
  obtain ⟨line, -, rfl⟩ := List.mem_map.mp (List.mem_reverse.mp among)
  rfl

namespace Token

variable {token : Token} {trace : Trace} {event : Event}

/-- **Work is started only while the token has not fired.** -/
def Respected (token : Token) (trace : Trace) : Prop :=
  ∀ event earlier, event :: earlier <:+ trace → event.isWork = true → token.fired earlier = false

theorem respected_nil : token.Respected [] := by
  intro event earlier part
  cases List.suffix_nil.mp part

theorem Respected.cons (respected : token.Respected trace)
    (unfired : event.isWork = true → token.fired trace = false) :
    token.Respected (event :: trace) := by
  intro work earlier part starts
  rcases List.suffix_cons_iff.mp part with same | old
  · cases same
    exact unfired starts
  · exact respected work earlier old starts

theorem Respected.append {events : Trace} (respected : token.Respected trace)
    (idle : ∀ event ∈ events, event.isWork = false) : token.Respected (events ++ trace) := by
  induction events with
  | nil => exact respected
  | cons event events ih =>
    have later := ih fun other among => idle other (List.mem_cons_of_mem _ among)
    refine later.cons fun starts => ?_
    rw [idle event List.mem_cons_self] at starts
    cases starts

end Token

/-- **Nothing but events**: files and findings are as they were, and no work was started. -/
structure Session.Idle (before after : Session) : Prop where
  world : after.world = before.world
  findings : after.findings = before.findings
  trace : ∃ events, after.trace = events ++ before.trace ∧ ∀ event ∈ events, event.isWork = false

namespace Session.Idle

variable {before middle : Session}

theorem refl (session : Session) : session.Idle session :=
  ⟨rfl, rfl, [], rfl, fun _ among => absurd among List.not_mem_nil⟩

theorem trans (first : before.Idle middle) (second : middle.Idle after) : before.Idle after := by
  obtain ⟨events, traced, idle⟩ := first.trace
  obtain ⟨later, traced', idle'⟩ := second.trace
  refine ⟨second.world.trans first.world, second.findings.trans first.findings, later ++ events, ?_,
    fun event among => ?_⟩
  · rw [traced', traced, List.append_assoc]
  · exact (List.mem_append.mp among).elim (idle' event) (idle event)

theorem noting {event : Event} (idle : event.isWork = false) (session : Session) :
    session.Idle (session.noting event) :=
  ⟨rfl, rfl, [event], rfl, fun _ among => List.mem_singleton.mp among ▸ idle⟩

theorem looked (session : Session) : session.Idle session.looked := noting rfl session

theorem respected {token : Token} (idle : before.Idle after)
    (respected : token.Respected before.trace) : token.Respected after.trace := by
  obtain ⟨events, traced, nothing⟩ := idle.trace
  rw [traced]
  exact respected.append nothing

end Session.Idle

/-- **Hooks that do the same until the token fires.** -/
structure Hooks.Until (hooks other : Hooks) : Prop where
  token : other.token = hooks.token
  prompt : other.prompt = hooks.prompt
  compiler : ∀ trace, hooks.token.fired trace = false →
    other.compiler trace = hooks.compiler trace
  service : ∀ trace, hooks.token.fired trace = false → other.service trace = hooks.service trace

theorem Hooks.Until.refl (hooks : Hooks) : hooks.Until hooks :=
  ⟨rfl, rfl, fun _ _ => rfl, fun _ _ => rfl⟩

namespace Job

variable {α β : Type} {job : Job α} {next : α → Job β}

/-! ## Part 2 — laws of jobs -/

/-- **The law of a job at a session.** -/
structure HeedsAt (hooks : Hooks) (job : Job α) (session : Session)
    (ends : Except JobError α → Session → Prop) : Prop where
  ends : ends (job.perform hooks session).1 (job.perform hooks session).2
  canceled : (job.perform hooks session).1 = .error .canceled →
    hooks.token.fired (job.perform hooks session).2.trace = true
  respects : hooks.token.Respected session.trace →
    hooks.token.Respected (job.perform hooks session).2.trace
  unasked : ∀ other, hooks.Until other → job.perform other session = job.perform hooks session

namespace HeedsAt

variable {ends : Except JobError α → Session → Prop}

/-- A step with one outcome, whatever the compiler and the service do. -/
theorem of_perform {outcome : Except JobError α}
    (ran : ∀ other, hooks.Until other → job.perform other session = (outcome, after))
    (holds : ends outcome after)
    (canceled : outcome = .error .canceled → hooks.token.fired after.trace = true)
    (respects : hooks.token.Respected session.trace → hooks.token.Respected after.trace) :
    HeedsAt hooks job session ends := by
  have here := ran hooks (Hooks.Until.refl hooks)
  refine ⟨?_, ?_, ?_, fun other same => (ran other same).trans here.symm⟩
  · rw [here]
    exact holds
  · rw [here]
    exact canceled
  · rw [here]
    exact respects

/-- What follows from the end of a job. -/
theorem mono {weaker : Except JobError α → Session → Prop} (law : HeedsAt hooks job session ends)
    (follows : ∀ outcome after, ends outcome after → weaker outcome after) :
    HeedsAt hooks job session weaker :=
  ⟨follows _ _ law.ends, law.canceled, law.respects, law.unasked⟩

/-- **One step after another**: the law of the second is needed where the first gives a value. -/
theorem bind {later : Except JobError β → Session → Prop} (first : HeedsAt hooks job session ends)
    (stops : ∀ error after, ends (.error error) after → later (.error error) after)
    (goes : ∀ value middle, job.perform hooks session = (.ok value, middle) →
      ends (.ok value) middle → HeedsAt hooks (next value) middle later) :
    HeedsAt hooks (job >>= next) session later := by
  obtain ⟨holds, canceled, respects, unasked⟩ := first
  rcases ran : job.perform hooks session with ⟨outcome, middle⟩
  rw [ran] at holds canceled respects
  have others : ∀ other, hooks.Until other → job.perform other session = (outcome, middle) :=
    fun other same => (unasked other same).trans ran
  cases outcome with
  | error error =>
    refine of_perform (fun other same => perform_bind_error (others other same))
      (stops error middle holds) (fun same => canceled ?_) respects
    cases same
    rfl
  | ok value =>
    have second := goes value middle ran holds
    have whole : (job >>= next).perform hooks session = (next value).perform hooks middle :=
      perform_bind_ok ran
    refine ⟨?_, ?_, fun before => ?_, fun other same => ?_⟩
    · rw [whole]
      exact second.ends
    · rw [whole]
      exact second.canceled
    · rw [whole]
      exact second.respects (respects before)
    · rw [whole, perform_bind_ok (others other same), second.unasked other same]

/-- A job that begins with the session as it is. -/
theorem get {body : Session → Job α} (law : HeedsAt hooks (body session) session ends) :
    HeedsAt hooks (MonadState.get >>= body) session ends := by
  have given : HeedsAt hooks (MonadState.get : Job Session) session fun outcome after =>
      outcome = .ok session ∧ after = session :=
    .of_perform (fun _ _ => perform_get) ⟨rfl, rfl⟩ (fun same => nomatch same) id
  refine given.bind (fun error after stopped => nomatch stopped.1) ?_
  rintro current middle - ⟨same, rfl⟩
  cases same
  exact law

end HeedsAt

/-- What a job adds to the trace comes on top of what happened before. -/
theorem HeedsAt.adding {ends : Except JobError α → Session → Prop} {allowed : Event → Prop}
    (law : HeedsAt hooks job session ends) (adds : Adds allowed hooks job) :
    HeedsAt hooks job session fun outcome after =>
      ends outcome after ∧ session.trace <:+ after.trace := by
  obtain ⟨events, traced, -⟩ := adds session
  exact ⟨⟨law.ends, events, traced.symm⟩, law.canceled, law.respects, law.unasked⟩

theorem liftIo_error {outcome : Except IoFault α} {error : JobError}
    (failed : liftIo outcome = .error error) : ∃ fault, error = .io fault := by
  cases outcome with
  | error fault => exact ⟨fault, (Except.error.inj failed).symm⟩
  | ok value => cases failed

/-- An action on the files is the same for all hooks. -/
theorem heedsAt_onDisk (action : Disk α) :
    HeedsAt hooks (onDisk action) session fun outcome after =>
      outcome = liftIo (action.run.run session.world).1 ∧
        after = { session with world := (action.run.run session.world).2 } := by
  refine .of_perform (fun _ _ => perform_onDisk action) ⟨rfl, rfl⟩ (fun same => ?_) id
  obtain ⟨fault, other⟩ := liftIo_error same
  cases other

/-- **An outcome that fails only in some ways**, or as canceled. -/
def FailsAs (fails : JobError → Prop) (outcome : Except JobError α) : Prop :=
  ∀ error, outcome = .error error → fails error ∨ error = .canceled

section FailsAs

variable {fails : JobError → Prop} {outcome : Except JobError α} {error : JobError}

theorem failsAs_ok (value : α) : FailsAs fails (.ok value) := fun _ same => nomatch same

theorem failsAs_canceled : FailsAs fails (.error .canceled : Except JobError α) :=
  fun _ same => .inr (Except.error.inj same).symm

theorem failsAs_of (failed : ∀ error, outcome = .error error → fails error) :
    FailsAs fails outcome := fun error same => .inl (failed error same)

theorem FailsAs.weaken {weaker : JobError → Prop} (known : FailsAs fails outcome)
    (failing : ∀ error, fails error → weaker error) : FailsAs weaker outcome :=
  fun error same => (known error same).imp_left (failing error)

/-- What is known of an error is known of it wherever it ends a job. -/
theorem FailsAs.carry (known : FailsAs fails (.error error : Except JobError α)) :
    FailsAs fails (.error error : Except JobError β) := by
  rintro other ⟨⟩
  exact known error rfl

end FailsAs

/-- **A job that leads from each session to one that follows it**, and fails only in some ways or as
canceled. -/
def Follows (leads : Session → Session → Prop) (hooks : Hooks) (fails : JobError → Prop)
    (job : Job α) : Prop :=
  ∀ session, HeedsAt hooks job session fun outcome after =>
    leads session after ∧ FailsAs fails outcome

section Follows

variable {leads : Session → Session → Prop} {fails : JobError → Prop}

theorem Follows.mono {others : Session → Session → Prop} {weaker : JobError → Prop}
    (follows : Follows leads hooks fails job)
    (leading : ∀ before after, leads before after → others before after)
    (failing : ∀ error, fails error → weaker error) : Follows others hooks weaker job :=
  fun session => (follows session).mono fun _ after ends =>
    ⟨leading session after ends.1, ends.2.weaken failing⟩

/-- **Steps that follow each other make up a job that does.** -/
theorem Follows.bind
    (trans : ∀ {before middle after}, leads before middle → leads middle after → leads before after)
    (first : Follows leads hooks fails job)
    (second : ∀ value, Follows leads hooks fails (next value)) :
    Follows leads hooks fails (job >>= next) := by
  intro session
  refine (first session).bind (fun error after stopped => ⟨stopped.1, stopped.2.carry⟩)
    fun value middle _ led => ?_
  exact (second value middle).mono fun _ _ ends => ⟨trans led.1 ends.1, ends.2⟩

end Follows

/-- **A job that only waits**: whatever it comes to, nothing but events happened. -/
abbrev Idles (hooks : Hooks) (fails : JobError → Prop) (job : Job α) : Prop :=
  Follows Session.Idle hooks fails job

section Idles

variable {fails : JobError → Prop}

theorem Idles.bind (first : Idles hooks fails job)
    (second : ∀ value, Idles hooks fails (next value)) :
    Idles hooks fails (job >>= next) :=
  Follows.bind Session.Idle.trans first second

/-- An idle step with one value. -/
theorem idles_of_perform {value : Session → α} {left : Session → Session}
    (ran : ∀ other session, hooks.Until other →
      job.perform other session = (.ok (value session), left session))
    (idle : ∀ session : Session, session.Idle (left session)) : Idles hooks fails job := by
  exact fun session => .of_perform (fun other same => ran other session same)
    ⟨idle session, failsAs_ok _⟩ (fun same => nomatch same) (idle session).respected

/-- A job that only waits adds events that start no work. -/
theorem Idles.adds {allowed : Event → Prop} (idles : Idles hooks fails job)
    (fits : ∀ event : Event, event.isWork = false → allowed event) : Adds allowed hooks job := by
  intro session
  obtain ⟨events, traced, idle⟩ := (idles session).ends.1.trace
  exact ⟨events, traced, fun event among => fits event (idle event among)⟩

theorem idles_pure (value : α) : Idles hooks fails (pure value) :=
  idles_of_perform (fun _ _ _ => rfl) Session.Idle.refl

theorem idles_emit {event : Event} (idle : event.isWork = false) :
    Idles hooks fails (emit event) :=
  idles_of_perform (fun _ _ _ => rfl) (Session.Idle.noting idle)

theorem idles_log (line : String) : Idles hooks fails (log line) := idles_emit rfl

theorem idles_progress (increment : Rat) (message : Option String) :
    Idles hooks fails (progress increment message) := idles_emit rfl

theorem idles_choose (choices : List String) : Idles hooks fails (choose choices) := by
  have ran : ∀ (other : Hooks) (session : Session), hooks.Until other →
      (choose choices).perform other session =
        (.ok (hooks.prompt choices), session.noting (.prompted choices)) := by
    intro other session same
    rw [perform_choose, same.prompt]
  exact idles_of_perform ran (Session.Idle.noting rfl)

theorem idles_logLines (text : String) : Idles hooks fails (logLines text) :=
  idles_of_perform (fun _ _ _ => perform_logLines text) fun _ =>
    ⟨rfl, rfl, Trace.printed text, rfl, fun _ => Trace.printed_idle⟩

theorem idles_get {body : Session → Job β} (goes : ∀ current, Idles hooks fails (body current)) :
    Idles hooks fails (get >>= body) :=
  Idles.bind (idles_of_perform (fun _ _ _ => perform_get) Session.Idle.refl) goes

/-- An error of a kind, thrown where it stands. -/
theorem heedsAt_settle {ends : Except JobError α → Session → Prop} (outcome : Except JobError α)
    (holds : ends outcome session) (failed : outcome ≠ .error .canceled) :
    HeedsAt hooks (settle outcome) session ends :=
  .of_perform (fun _ _ => perform_settle outcome) holds (fun same => absurd same failed) id

theorem heedsAt_inspect {question : World → Except JobError α}
    (loud : question session.world ≠ .error .canceled) :
    HeedsAt hooks (inspect question) session fun outcome after =>
      outcome = question session.world ∧ after = session :=
  .of_perform (fun _ _ => perform_inspect question) ⟨rfl, rfl⟩ (fun same => absurd same loud) id

theorem idles_settle {outcome : Except JobError α}
    (failed : ∀ error, outcome = .error error → fails error) (loud : ¬ fails .canceled) :
    Idles hooks fails (settle outcome) := fun session =>
  heedsAt_settle outcome ⟨.refl session, failsAs_of failed⟩ fun same => loud (failed _ same)

theorem idles_throw {error : JobError} (failed : fails error) (loud : ¬ fails .canceled) :
    Idles hooks fails (throw error : Job α) := by
  have settled : Idles hooks fails (settle (.error error) : Job α) := by
    refine idles_settle ?_ loud
    rintro other ⟨⟩
    exact failed
  exact settled

theorem idles_inspect {question : World → Except JobError α}
    (failed : ∀ world error, question world = .error error → fails error)
    (loud : ¬ fails .canceled) : Idles hooks fails (inspect question) :=
  idles_get fun current => idles_settle (failed current.world) loud

end Idles

/-! ## Part 3 — looks at the token -/

/-- **A look at the token** tells whether it has fired. -/
theorem heedsAt_look (hooks : Hooks) (session : Session) :
    HeedsAt hooks look session fun outcome after =>
      after = session.looked ∧ outcome = .ok (hooks.token.fired session.looked.trace) := by
  have ran : ∀ other, hooks.Until other → look.perform other session =
      (.ok (hooks.token.fired session.looked.trace), session.looked) := by
    intro other same
    rw [← same.token]
    rfl
  exact .of_perform ran ⟨rfl, rfl⟩ (fun same => nomatch same)
    (Session.Idle.looked session).respected

/-- **A checkpoint**: the job ends as canceled, or the token has not fired. -/
theorem heedsAt_checkpoint (hooks : Hooks) (session : Session) :
    HeedsAt hooks checkpoint session fun outcome after =>
      after = session.looked ∧ (outcome = .error .canceled ∨
        outcome = .ok ⟨⟩ ∧ hooks.token.fired session.looked.trace = false) := by
  have ran : ∀ other, hooks.Until other → checkpoint.perform other session =
      (if hooks.token.fired session.looked.trace = true then .error .canceled else .ok ⟨⟩,
        session.looked) := by
    intro other same
    rw [perform_checkpoint_eq, same.token]
  refine .of_perform ran ⟨rfl, ?_⟩ ?_ (Session.Idle.looked session).respected
  · by_cases fired : hooks.token.fired session.looked.trace = true
    · exact .inl (if_pos fired)
    · exact .inr ⟨if_neg fired, Bool.not_eq_true _ ▸ fired⟩
  · intro same
    split at same
    · next fired => exact fired
    · cases same

theorem idles_checkpoint {fails : JobError → Prop} : Idles hooks fails checkpoint := by
  intro session
  refine (heedsAt_checkpoint hooks session).mono ?_
  rintro outcome after ⟨rfl, rfl | ⟨rfl, -⟩⟩
  · exact ⟨.looked session, failsAs_canceled⟩
  · exact ⟨.looked session, failsAs_ok _⟩

/-- The end of a job as a value: the value tells whether the job was canceled. -/
theorem HeedsAt.attempt {ends : Except JobError α → Session → Prop}
    (law : HeedsAt hooks job session ends) :
    HeedsAt hooks job.attempt session fun outcome after => ∃ result, outcome = .ok result ∧
      ends result after ∧ (result = .error .canceled → hooks.token.fired after.trace = true) := by
  refine .of_perform (fun other same => ?_) ⟨_, rfl, law.ends, law.canceled⟩
    (fun same => nomatch same) law.respects
  rw [perform_attempt, law.unasked other same]

/-- **Work that the job waits for**: it ends as the work does, or as canceled. -/
theorem HeedsAt.awaited {ends later : Except JobError α → Session → Prop}
    (work : HeedsAt hooks job session ends)
    (waits : ∀ outcome after, ends outcome after →
      later (.error .canceled) after.looked ∧ later outcome after.looked) :
    HeedsAt hooks job.awaited session later := by
  refine work.attempt.bind (fun error after ⟨_, failed, _⟩ => nomatch failed) ?_
  rintro outcome middle - ⟨_, same, holds, canceled⟩
  cases same
  obtain ⟨stopped, ended⟩ := waits outcome middle holds
  refine (heedsAt_checkpoint hooks middle).bind ?_ ?_
  · rintro error after ⟨rfl, same | ⟨passed, -⟩⟩
    · cases same
      exact stopped
    · cases passed
  · rintro value after - ⟨rfl, same | ⟨-, unfired⟩⟩
    · cases same
    · refine heedsAt_settle _ ended fun same => ?_
      rw [Session.looked_trace] at unfired
      rw [hooks.token.latched _ _ (canceled same)] at unfired
      cases unfired

/-- **Guarded work** is begun only if the token has not fired. -/
theorem HeedsAt.guarded {ends later : Except JobError α → Session → Prop}
    (stops : later (.error .canceled) session.looked)
    (work : hooks.token.fired session.looked.trace = false →
      HeedsAt hooks job session.looked ends)
    (waits : ∀ outcome after, ends outcome after →
      later (.error .canceled) after.looked ∧ later outcome after.looked) :
    HeedsAt hooks job.guarded session later := by
  refine (heedsAt_checkpoint hooks session).bind ?_ ?_
  · rintro error after ⟨rfl, same | ⟨passed, -⟩⟩
    · cases same
      exact stops
    · cases passed
  · rintro value middle - ⟨rfl, stopped | ⟨-, unfired⟩⟩
    · cases stopped
    · exact (work unfired).awaited waits

/-- **Guarded work that follows** where the token has not fired. -/
theorem follows_guarded {leads : Session → Session → Prop} {fails : JobError → Prop}
    (looks : ∀ session : Session, leads session session.looked)
    (trans : ∀ {before middle after}, leads before middle → leads middle after → leads before after)
    (work : ∀ session, hooks.token.fired session.trace = false →
      HeedsAt hooks job session fun outcome after => leads session after ∧ FailsAs fails outcome) :
    Follows leads hooks fails job.guarded := by
  intro session
  refine HeedsAt.guarded ⟨looks session, failsAs_canceled⟩ (work session.looked) ?_
  rintro outcome after ⟨led, failed⟩
  have leads := trans (trans (looks session) led) (looks after)
  exact ⟨⟨leads, failsAs_canceled⟩, leads, failed⟩

section Idles

variable {fails : JobError → Prop}

theorem Idles.awaited (idles : Idles hooks fails job) : Idles hooks fails job.awaited := by
  refine fun session => (idles session).awaited ?_
  rintro outcome after ⟨idle, failed⟩
  have idle := idle.trans (.looked after)
  exact ⟨⟨idle, failsAs_canceled⟩, idle, failed⟩

theorem Idles.guarded (idles : Idles hooks fails job) : Idles hooks fails job.guarded :=
  idles_checkpoint.bind fun _ => idles.awaited

end Idles

end Job

end ShaderForge

/-
**Two runs of a job.**

A job is run twice, in sessions with one past and with related files (`Session.Alike`). It *goes
alike* if it comes to the same in both, with the same events and findings, and leaves files that are
related again (`Job.GoesAlike`).

A step goes alike if it asks the files nothing but what they agree on, and steps that go alike make
up a job that does (`GoesAlike.bind`). The token is looked at after the same events in both runs, so
it fires in both or in neither (`alike_checkpoint`). In sessions with the same files every job goes
alike (`alike_of_eq`).
-/

import ShaderForge.Proofs.RemoteRun

namespace ShaderForge

variable {hooks : Hooks} {Before Between After : World → World → Prop}

/-- **Sessions with one past**, whose files are related. -/
structure Session.Alike (Related : World → World → Prop) (left right : Session) : Prop where
  worlds : Related left.world right.world
  trace : right.trace = left.trace
  findings : right.findings = left.findings

theorem Session.Alike.noting {left right : Session} (alike : Session.Alike Before left right)
    (event : Event) : Session.Alike Before (left.noting event) (right.noting event) :=
  ⟨alike.worlds, congrArg (event :: ·) alike.trace, alike.findings⟩

namespace Job

variable {α β : Type} {job : Job α} {next : α → Job β}

/-- **Two ends of a job** that are the same but for the files, which are related if there is a
result. -/
structure EndsAlike (After : World → World → Prop)
    (first second : Except JobError α × Session) : Prop where
  outcome : second.1 = first.1
  trace : second.2.trace = first.2.trace
  findings : second.2.findings = first.2.findings
  worlds : ∀ value, first.1 = .ok value → After first.2.world second.2.world

/-- **A job that goes alike** in sessions with one past. -/
def GoesAlike (Before After : World → World → Prop) (hooks : Hooks) (job : Job α) : Prop :=
  ∀ left right, Session.Alike Before left right →
    EndsAlike After (job.perform hooks left) (job.perform hooks right)

/-! ## Part 1 — one step after another -/

/-- **Steps that go alike make up a job that does.** The second one has to for the results that the
first one can give. -/
theorem GoesAlike.bind (first : GoesAlike Before Between hooks job)
    (second : ∀ value, (∃ left right, Session.Alike Before left right ∧
      (job.perform hooks left).1 = .ok value) → GoesAlike Between After hooks (next value)) :
    GoesAlike Before After hooks (job >>= next) := by
  intro left right alike
  have ends := first left right alike
  rw [perform_bind, perform_bind]
  rcases ran : job.perform hooks left with ⟨outcome, middle⟩
  rcases ran' : job.perform hooks right with ⟨outcome', middle'⟩
  rw [ran, ran'] at ends
  obtain ⟨same, trace, findings, worlds⟩ := ends
  cases same
  cases outcome with
  | error error => exact ⟨rfl, trace, findings, fun value succeeded => nomatch succeeded⟩
  | ok value =>
    exact second value ⟨left, right, alike, by rw [ran]⟩ middle middle'
      ⟨worlds value rfl, trace, findings⟩

/-- The same, where the results of the first step do not matter. -/
theorem GoesAlike.then (first : GoesAlike Before Between hooks job)
    (second : ∀ value, GoesAlike Between After hooks (next value)) :
    GoesAlike Before After hooks (job >>= next) :=
  first.bind fun value _ => second value

/-- A job goes alike in fewer worlds. -/
theorem GoesAlike.narrow (goes : GoesAlike Between After hooks job)
    (narrower : ∀ left right, Before left right → Between left right) :
    GoesAlike Before After hooks job :=
  fun left right alike =>
    goes left right ⟨narrower _ _ alike.worlds, alike.trace, alike.findings⟩

/-- **In one session every job goes alike.** -/
theorem alike_of_eq (job : Job α) : GoesAlike Eq Eq hooks job := by
  rintro left right ⟨worlds, trace, findings⟩
  have same : right = left := by
    cases left
    cases right
    cases worlds
    cases trace
    cases findings
    rfl
  rw [same]
  exact ⟨rfl, rfl, rfl, fun _ _ => rfl⟩

theorem alike_pure (value : α) : GoesAlike Before Before hooks (pure value) :=
  fun _ _ alike => ⟨rfl, alike.trace, alike.findings, fun _ _ => alike.worlds⟩

theorem alike_throw (error : JobError) : GoesAlike Before After hooks (throw error : Job α) :=
  fun _ _ alike => ⟨rfl, alike.trace, alike.findings, fun _ succeeded => nomatch succeeded⟩

theorem alike_failed (error : JobError) :
    GoesAlike Before After hooks (settle (.error error) : Job α) := alike_throw error

theorem alike_settle (outcome : Except JobError α) :
    GoesAlike Before Before hooks (settle outcome) := by
  cases outcome with
  | ok value => exact alike_pure value
  | error error => exact alike_failed error

theorem alike_emit (event : Event) : GoesAlike Before Before hooks (emit event) :=
  fun _ _ alike => ⟨rfl, (alike.noting event).trace, alike.findings, fun _ _ => alike.worlds⟩

theorem alike_progress (increment : Rat) (message : Option String) :
    GoesAlike Before Before hooks (progress increment message) := alike_emit _

theorem alike_log (line : String) : GoesAlike Before Before hooks (log line) := alike_emit _

theorem alike_clearFindings : GoesAlike Before Before hooks clearFindings :=
  fun _ _ alike =>
    ⟨rfl, alike.trace, congrArg DiagnosticCollection.clear alike.findings, fun _ _ => alike.worlds⟩

theorem alike_choose (choices : List String) :
    GoesAlike Before Before hooks (choose choices) :=
  (alike_emit _).then fun _ _ _ alike =>
    ⟨rfl, alike.trace, alike.findings, fun _ _ => alike.worlds⟩

/-! ## Part 2 — the token -/

theorem alike_look : GoesAlike Before Before hooks look := by
  intro left right alike
  have after := alike.noting .looked
  refine ⟨?_, after.trace, after.findings, fun _ _ => after.worlds⟩
  exact congrArg (fun trace => Except.ok (hooks.token.fired trace)) after.trace

/-- **The token fires in both runs or in neither.** -/
theorem alike_checkpoint : GoesAlike Before Before hooks checkpoint := by
  refine alike_look.then fun fired => ?_
  cases fired with
  | true => exact alike_throw _
  | false => exact alike_pure _

theorem GoesAlike.awaited (goes : GoesAlike Before After hooks job) :
    GoesAlike Before After hooks job.awaited := by
  intro left right alike
  obtain ⟨outcome, trace, findings, worlds⟩ := goes left right alike
  have ends : ∀ session, job.awaited.perform hooks session =
      (checkpoint >>= fun _ => settle (job.perform hooks session).1).perform hooks
        (job.perform hooks session).2 := fun session => perform_bind_ok (perform_attempt job)
  rw [ends, ends, outcome]
  cases succeeds : (job.perform hooks left).1 with
  | error error =>
    -- Nothing is known of the files after an error, and nothing has to be.
    have stops : GoesAlike (fun _ _ => True) After hooks
        (checkpoint >>= fun _ => settle (.error error) : Job α) :=
      alike_checkpoint.then fun _ => alike_failed error
    exact stops _ _ ⟨trivial, trace, findings⟩
  | ok value =>
    have goes : GoesAlike After After hooks (checkpoint >>= fun _ => settle (.ok value)) :=
      alike_checkpoint.then fun _ => alike_settle (.ok value)
    exact goes _ _ ⟨worlds value succeeds, trace, findings⟩

theorem GoesAlike.guarded (goes : GoesAlike Before After hooks job) :
    GoesAlike Before After hooks job.guarded :=
  alike_checkpoint.then fun _ => goes.awaited

/-! ## Part 3 — the files -/

/-- **What is asked of the files goes alike if they agree on it.** -/
theorem alike_get {body : Session → Job β}
    (same : ∀ one other : Session, Before one.world other.world → body other = body one)
    (goes : ∀ session, GoesAlike Before After hooks (body session)) :
    GoesAlike Before After hooks (get >>= body) := by
  intro left right alike
  rw [perform_bind_ok perform_get, perform_bind_ok perform_get, same left right alike.worlds]
  exact goes left left right alike

theorem alike_inspect {question : World → Except JobError α}
    (agree : ∀ left right, Before left right → question right = question left) :
    GoesAlike Before Before hooks (inspect question) :=
  alike_get (fun one other worlds => congrArg settle (agree one.world other.world worlds))
    fun session => alike_settle (question session.world)

/-- An action on the files goes alike if it does so on the files alone. -/
theorem alike_onDisk {action : Disk α}
    (agree : ∀ left right, Before left right →
      (action.run.run right).1 = (action.run.run left).1 ∧
        ∀ value, (action.run.run left).1 = .ok value →
          After (action.run.run left).2 (action.run.run right).2) :
    GoesAlike Before After hooks (onDisk action) := by
  intro left right alike
  obtain ⟨outcome, worlds⟩ := agree _ _ alike.worlds
  rw [perform_onDisk, perform_onDisk, outcome]
  refine ⟨rfl, alike.trace, alike.findings, fun value succeeded => ?_⟩
  cases ran : (action.run.run left.world).1 with
  | error fault =>
    rw [ran] at succeeded
    cases succeeded
  | ok result => exact worlds result ran

/-! ## Part 4 — the service -/

/-- A request is answered after the same events, and so with the same answer. -/
theorem alike_request (upload : Upload) : GoesAlike Before Before hooks (request upload) := by
  intro left right alike
  have after := alike.noting (.sent upload)
  rw [perform_request, perform_request, alike.trace]
  exact ⟨rfl, after.trace, after.findings, fun _ _ => after.worlds⟩

theorem alike_receiveEach (url : String) (broken acknowledged : Bool) (pieces : List ByteArray) :
    GoesAlike Before Before hooks (receiveEach url broken acknowledged pieces) := by
  have acknowledges : ∀ (already : Bool) (next : Job ByteArray),
      GoesAlike Before Before hooks next → GoesAlike Before Before hooks
        (if !already then acknowledge >>= fun _ => next else next) := by
    intro already next goes
    cases already with
    | false => exact (alike_progress _ _).then fun _ => goes
    | true => exact goes
  induction pieces generalizing acknowledged with
  | nil =>
    refine GoesAlike.then (GoesAlike.guarded ?_) fun _ => acknowledges acknowledged _ (alike_pure _)
    cases broken with
    | false => exact alike_pure _
    | true => exact alike_throw _
  | cons piece rest ih =>
    exact alike_checkpoint.then fun _ =>
      acknowledges acknowledged _ ((ih true).then fun _ => alike_pure _)

theorem alike_receive (url : String) (pieces : List ByteArray) (broken : Bool) :
    GoesAlike Before Before hooks (receive url pieces broken) :=
  (alike_receiveEach url broken false pieces).then fun _ => (alike_progress _ _).then fun _ =>
    alike_pure _

theorem alike_upload (service : Service) (format : String) (archive : Archive) :
    GoesAlike Before Before hooks (upload service format archive) :=
  (alike_log _).then fun _ => alike_checkpoint.then fun _ => (alike_request _).guarded

end Job

end ShaderForge

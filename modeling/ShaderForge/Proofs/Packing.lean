/-
**Packing, entry by entry.**

`packed` is what packing a plan comes to when nobody interferes: the entries give their members in
order, up to the first one that cannot be read. `perform_packFrom` says that packing does just this
and reports after each member how many bytes there are so far (`packSteps`); it is by induction on
the entries that are left.

So packing ends with all members of the plan or with the fault of the first entry that has one, and
never with part of the members (`perform_pack`); the files are only read.
-/

import ShaderForge.Archive.Pack
import ShaderForge.Proofs.Edits
import ShaderForge.Proofs.Perform

namespace ShaderForge

variable {hooks : Hooks} {session : Session} {world : World} {report : Nat → Nat → Job Unit}
  {shown : Nat → Nat → Event} {plan : List ArchiveEntry}

/-! ## Part 1 — the members of a plan -/

/-- **The member that an entry becomes**: its name with the bytes of its source. -/
def ArchiveEntry.member (world : World) (entry : ArchiveEntry) :
    Except JobError (String × ByteArray) :=
  (entry.source.content world).map fun content => (entry.name, content)

/-- **The members that a plan becomes**, in order, up to the first entry that cannot be read. -/
def packed (world : World) : List ArchiveEntry → Packing
  | [] => ⟨[], none⟩
  | entry :: rest =>
    match entry.member world with
    | .error fault => ⟨[], some fault⟩
    | .ok member => ⟨member :: (packed world rest).members, (packed world rest).fault⟩

/-- All members of a packing, or the fault that ended it. -/
def Packing.outcome (packing : Packing) : Except JobError (List (String × ByteArray)) :=
  match packing.fault with
  | none => .ok packing.members
  | some fault => .error fault

/-- **Packing gives the members of all entries, or the first fault.** -/
theorem packed_outcome (world : World) (plan : List ArchiveEntry) :
    (packed world plan).outcome = plan.mapM (ArchiveEntry.member world) := by
  induction plan with
  | nil => rfl
  | cons entry rest ih =>
    rw [List.mapM_cons, packed, ← ih]
    cases entry.member world with
    | error fault => rfl
    | ok member =>
      show Packing.outcome ⟨member :: (packed world rest).members, (packed world rest).fault⟩ =
        (packed world rest).outcome >>= fun members => pure (member :: members)
      unfold Packing.outcome
      cases (packed world rest).fault with
      | none => rfl
      | some fault => rfl

theorem Packing.eq_of_outcome {packing : Packing} {members : List (String × ByteArray)}
    (all : packing.outcome = .ok members) : packing = ⟨members, none⟩ := by
  obtain ⟨found, fault⟩ := packing
  cases fault with
  | none =>
    cases all
    rfl
  | some fault => cases all

/-! ## Part 2 — packing gives these members -/

/-- **A report of packing that is one event.** -/
def Job.Shows (hooks : Hooks) (report : Nat → Nat → Job Unit) (shown : Nat → Nat → Event) : Prop :=
  ∀ done total session, (report done total).perform hooks session =
    (.ok ⟨⟩, session.noting (shown done total))

/-- What packing some members leaves behind, after `done` bytes: a look at the token before each
member and a report after it. -/
def packSteps (shown : Nat → Nat → Event) (total : Nat) :
    Nat → List (String × ByteArray) → List Event
  | _, [] => []
  | done, member :: rest =>
    .looked :: shown (done + member.2.size) total ::
      packSteps shown total (done + member.2.size) rest

/-- The trace that packing leaves: the steps of the members, and one more look at the token before
the entry that could not be read. -/
def Packing.trace (packing : Packing) (shown : Nat → Nat → Event) (total done : Nat) : Trace :=
  (match packing.fault with | none => [] | some _ => [.looked]) ++
    (packSteps shown total done packing.members).reverse

/-- The steps of the first member come before those of the later ones. -/
theorem Packing.trace_cons_append (later : Packing) (member : String × ByteArray)
    (shown : Nat → Nat → Event) (total done : Nat) (trace : Trace) :
    Packing.trace ⟨member :: later.members, later.fault⟩ shown total done ++ trace =
      later.trace shown total (done + member.2.size) ++
        shown (done + member.2.size) total :: .looked :: trace := by
  simp [Packing.trace, packSteps]

namespace Job

theorem perform_packFrom (quiet : hooks.Quiet) (shows : Shows hooks report shown)
    (plan : List ArchiveEntry) (total done : Nat) :
    (packFrom report total done plan).perform hooks session =
      (.ok (packed session.world plan),
        { session with
          trace := (packed session.world plan).trace shown total done ++ session.trace }) := by
  induction plan generalizing session done with
  | nil => rfl
  | cons entry rest ih =>
    rw [packFrom, perform_bind_ok (perform_look quiet)]
    show (get >>= fun current => _ : Job Packing).perform hooks session.looked = _
    rw [perform_bind_ok perform_get, packed, ArchiveEntry.member]
    dsimp only [Session.looked_world]
    cases entry.source.content session.world with
    | error fault => rfl
    | ok content =>
      show (report (done + content.size) total >>= fun _ => _ : Job Packing).perform hooks _ = _
      rw [perform_bind_ok (shows _ _ _), perform_bind_ok (ih _)]
      have steps := (packed session.world rest).trace_cons_append (entry.name, content) shown total
        done session.trace
      exact congrArg (fun trace => (_, { session with trace })) steps.symm

/-- **Packing gives all members of a plan, or the first fault, and only reads.** -/
theorem perform_pack (quiet : hooks.Quiet) (shows : Shows hooks report shown)
    (plan : List ArchiveEntry) :
    (pack report plan).perform hooks session =
      ((plan.mapM (ArchiveEntry.member session.world)).map Archive.mk,
        { session with
          trace := (packed session.world plan).trace shown (expectedSize session.world plan) 0 ++
            session.trace }) := by
  rw [pack, perform_bind_ok perform_get, perform_bind_ok (perform_packFrom quiet shows _ _ _),
    ← packed_outcome, Packing.outcome]
  cases (packed session.world plan).fault with
  | none => rfl
  | some fault => rfl

/-- Packing that nothing stopped gave each entry a member, whatever the token does. -/
theorem packFrom_names {total done : Nat} {packing : Packing}
    (given : ((packFrom report total done plan).perform hooks session).1 = .ok packing)
    (whole : packing.fault = none) :
    packing.members.map Prod.fst = plan.map ArchiveEntry.name := by
  induction plan generalizing session done packing with
  | nil =>
    cases given
    rfl
  | cons entry rest ih =>
    rw [packFrom] at given
    obtain ⟨fired, looked, -, goes⟩ := perform_bind_gives given
    cases fired with
    | true =>
      cases goes
      cases whole
    | false =>
      obtain ⟨current, _, -, goes⟩ := perform_bind_gives goes
      cases read : entry.source.content current.world with
      | error fault =>
        rw [read] at goes
        cases goes
        cases whole
      | ok content =>
        rw [read] at goes
        obtain ⟨_, _, -, goes⟩ := perform_bind_gives goes
        obtain ⟨later, _, packs, goes⟩ := perform_bind_gives goes
        cases goes
        exact congrArg (entry.name :: ·) (ih (congrArg Prod.fst packs) whole)

/-- **An archive that packing gives has the names of the plan**, whatever the token does. -/
theorem pack_names {archive : Archive}
    (given : ((pack report plan).perform hooks session).1 = .ok archive) :
    archive.names = plan.map ArchiveEntry.name := by
  obtain ⟨current, _, -, goes⟩ := perform_bind_gives given
  obtain ⟨packing, _, packs, goes⟩ := perform_bind_gives goes
  cases stopped : packing.fault with
  | some fault =>
    rw [stopped] at goes
    cases goes
  | none =>
    rw [stopped] at goes
    cases goes
    exact packFrom_names (congrArg Prod.fst packs) stopped

/-- Packing adds its reports to the trace, and looks at the token. -/
theorem adds_pack {allowed : Event → Prop} (looks : allowed .looked)
    (reports : ∀ done total, Adds allowed hooks (report done total)) (plan : List ArchiveEntry) :
    Adds allowed hooks (pack report plan) := by
  have look : Adds allowed hooks look :=
    (adds_emit looks).bind fun _ => Adds.of_trace_eq fun _ => rfl
  have each : ∀ total done, Adds allowed hooks (packFrom report total done plan) := by
    intro total
    induction plan with
    | nil => exact fun _ => adds_pure _
    | cons entry rest ih =>
      intro done
      refine look.bind fun fired => ?_
      cases fired with
      | true => exact adds_pure _
      | false =>
        refine (Adds.of_trace_eq fun _ => rfl : Adds allowed hooks get).bind fun current => ?_
        cases entry.source.content current.world with
        | error fault => exact adds_pure _
        | ok content => exact (reports _ _).bind fun _ => (ih _).bind fun _ => adds_pure _
  refine (Adds.of_trace_eq fun _ => rfl : Adds allowed hooks get).bind fun current => ?_
  refine (each _ _).bind fun packing => ?_
  cases packing.fault with
  | none => exact adds_pure _
  | some fault => exact adds_throw _

/-- **A file that can be removed is discarded.** -/
theorem perform_discard {path : Path} {after : World}
    (removed : session.world.removeFile path = .ok after) :
    (discard path).perform hooks session = (.ok ⟨⟩, { session with world := after }) := by
  have ran : (onDisk (Disk.change fun world => world.removeFile path)).perform hooks session =
      (.ok ⟨⟩, { session with world := after }) := by
    rw [perform_onDisk, Disk.run_change, removed]
    rfl
  unfold discard
  rw [perform_bind_ok (perform_attempt _), ran]
  rfl

end Job

end ShaderForge

/-
**Archives that are written, or taken back.**

The token is looked at before each entry, and a progress call is made after each. So a token that
fires after a number of calls (`Token.FiresAfter`) lets as many entries through and no more
(`perform_packFrom_until`, by induction on the entries that are left). If an entry is left then, the
file is removed; otherwise all members are in it (`Job.writeArchive_ends`).

Each call says how many bytes are packed so far, of how many. The second number was counted before
the first entry, from the sizes of the files; it is reached by the last call because the files that
are read are those that were counted, as none of them is the archive itself.
-/

import ShaderForge.Proofs.ArchiveReadback
import ShaderForge.Proofs.DirectoryRoundTrip

namespace ShaderForge

variable {hooks : Hooks} {session : Session} {world before after : World} {destination : Path}
  {place parent : Location} {name : EntryName} {plan : List ArchiveEntry} {archive : Archive}
  {members : List (String × ByteArray)} {moment : Option Nat}

/-! ## Part 1 — when the token fires -/

/-- Whether an event is a progress call of packing. -/
def Event.isPacked : Event → Bool
  | .packed _ _ => true
  | _ => false

/-- **The token fires after a number of progress calls** from a trace on, or never. -/
def Token.FiresAfter (token : Token) (moment : Option Nat) (trace : Trace) : Prop :=
  ∀ events, token.fired (events ++ trace) = true ↔
    ∃ count ∈ moment, count ≤ events.countP Event.isPacked

namespace Token.FiresAfter

variable {token : Token} {trace : Trace}

/-- It has fired once no call is left. -/
theorem fired_iff (fires : token.FiresAfter moment trace) :
    token.fired trace = true ↔ moment = some 0 := by
  have now := fires []
  rw [List.nil_append, List.countP_nil] at now
  rw [now]
  constructor
  · rintro ⟨count, same, none⟩
    rw [← Nat.le_zero.mp none]
    exact same
  · rintro rfl
    exact ⟨0, rfl, Nat.le_refl 0⟩

/-- A look at the token is no call. -/
theorem looked (fires : token.FiresAfter moment trace) :
    token.FiresAfter moment (.looked :: trace) := by
  intro events
  have later := fires (events ++ [.looked])
  rwa [List.append_assoc, List.singleton_append, List.countP_append, List.countP_singleton,
    if_neg (by decide), Nat.add_zero] at later

/-- After a call one less is left. -/
theorem packed (fires : token.FiresAfter moment trace) (waiting : moment ≠ some 0)
    (done total : Nat) :
    token.FiresAfter (moment.map Nat.pred) (.packed done total :: trace) := by
  intro events
  have later := fires (events ++ [.packed done total])
  rw [List.append_assoc, List.singleton_append, List.countP_append, List.countP_singleton,
    show Event.isPacked (.packed done total) = true from rfl, if_pos rfl] at later
  rw [later]
  cases moment with
  | none => simp
  | some count =>
    cases count with
    | zero => exact absurd rfl waiting
    | succ count => simp

end Token.FiresAfter

/-- The token that never fires. -/
theorem Token.never_firesAfter (trace : Trace) : Token.never.FiresAfter none trace := fun _ =>
  iff_of_false Bool.false_ne_true fun ⟨_, nothing, _⟩ => nomatch nothing

/-- The token that counts the calls of a job. -/
theorem Token.after_firesAfter (count : Nat) :
    (Token.after count Event.isPacked).FiresAfter (some count) [] := by
  intro events
  rw [List.append_nil]
  show decide (count ≤ events.countP Event.isPacked) = true ↔ _
  rw [decide_eq_true_iff]
  constructor
  · exact fun reached => ⟨count, rfl, reached⟩
  · rintro ⟨other, same, reached⟩
    cases same
    exact reached

/-! ## Part 2 — sources that can be read -/

/-- **A source that can be read and is not the destination**: bytes, or a file elsewhere. Archives
have four bytes for the size of an entry, and no entry is taken that needs more. -/
def EntrySource.ReadsBeside (world : World) (destination : Path) : EntrySource → Prop
  | file path => ∃ place bytes, world.find path = .ok (place, .file bytes) ∧ bytes.size < 2 ^ 32 ∧
      ∀ parent name slashed, world.target destination = .ok (.entry parent name slashed) →
        place ≠ name :: parent
  | bytes content => content.size < 2 ^ 32

/-- **What an entry becomes in an archive**: its name, and the bytes of its source. -/
def ArchiveEntry.Becomes (world : World) (entry : ArchiveEntry) (member : String × ByteArray) :
    Prop :=
  member.1 = entry.name ∧ entry.source.content world = .ok member.2

/-- A source that can be read has content, of the size that was counted. -/
theorem EntrySource.ReadsBeside.content {source : EntrySource}
    (reads : source.ReadsBeside world destination) :
    ∃ content, source.content world = .ok content ∧ source.size world = content.size := by
  cases source with
  | bytes content => exact ⟨content, rfl, rfl⟩
  | file path =>
    obtain ⟨place, content, found, -, -⟩ := reads
    refine ⟨content, ?_, ?_⟩
    · rw [EntrySource.content, World.read_of_find found]
      rfl
    · have located : world.find? path = some (place, .file content) :=
        toOption_eq_some.mpr found
      rw [EntrySource.size, World.size, located]

/-- What a path leads to stays when something is placed elsewhere. -/
theorem World.Placed.find_beside {node held : Node} {other : Location} {path : Path}
    (placed : before.Placed place node after) (free : ¬ before.IsDirectoryAt place)
    (found : before.find path = .ok (other, held)) (apart : other ≠ place) :
    after.find path = .ok (other, held) := by
  have keeps := placed.keepsDirectories free
  rcases World.find_ok found with ⟨rfl, leads⟩ | ⟨parent, name, slashed, leads, rfl, there, proper⟩
  · rw [World.find, keeps.target leads]
    rfl
  · rw [World.find, keeps.target leads]
    show after.nodeOf (.entry parent name slashed) = _
    rw [World.nodeOf, placed.nodes, if_neg apart, there]
    dsimp only
    rw [proper]
    rfl

/-- What a source gives does not change when a file is placed at the destination. -/
theorem EntrySource.ReadsBeside.content_placed {source : EntrySource} {node : Node}
    (reads : source.ReadsBeside before destination)
    (goal : before.target destination = .ok (.entry parent name false))
    (free : ¬ before.IsDirectoryAt (name :: parent))
    (placed : before.Placed (name :: parent) node after) :
    source.content after = source.content before := by
  cases source with
  | bytes content => rfl
  | file path =>
    obtain ⟨place, content, found, -, other⟩ := reads
    have still := placed.find_beside free found (other parent name false goal)
    rw [EntrySource.content, EntrySource.content, World.read_of_find found,
      World.read_of_find still]

/-! ## Part 3 — packing under such a token -/

/-- **What is packed before the token fires**: all members, or as many as there may be calls. -/
def packedBy (moment : Option Nat) (members : List (String × ByteArray)) : Packing :=
  match moment with
  | none => ⟨members, none⟩
  | some count =>
    if count < members.length then ⟨members.take count, some .canceled⟩ else ⟨members, none⟩

theorem packedBy_nil (moment : Option Nat) : packedBy moment [] = ⟨[], none⟩ := by
  cases moment with
  | none => rfl
  | some count =>
    rw [packedBy]
    exact if_neg (Nat.not_lt_zero count)

/-- If there may be a call, the first member is packed. -/
theorem packedBy_cons (waiting : moment ≠ some 0) (member : String × ByteArray) :
    packedBy moment (member :: members) =
      ⟨member :: (packedBy (moment.map Nat.pred) members).members,
        (packedBy (moment.map Nat.pred) members).fault⟩ := by
  cases moment with
  | none => rfl
  | some count =>
    cases count with
    | zero => exact absurd rfl waiting
    | succ count =>
      show packedBy (some (count + 1)) (member :: members) =
        ⟨member :: (packedBy (some count) members).members, (packedBy (some count) members).fault⟩
      unfold packedBy
      dsimp only
      rw [List.length_cons]
      by_cases left : count < members.length
      · rw [if_pos left, if_pos (Nat.succ_lt_succ left), List.take_succ_cons]
      · rw [if_neg left, if_neg fun more => left (Nat.lt_of_succ_lt_succ more)]

namespace Job

/-- **Packing goes on until the token fires.** -/
theorem perform_packFrom_until
    (becomes : List.Forall₂ (ArchiveEntry.Becomes session.world) plan members)
    (fires : hooks.token.FiresAfter moment session.trace) (total done : Nat) :
    (packFrom reportPacked total done plan).perform hooks session =
      (.ok (packedBy moment members),
        { session with
          trace := (packedBy moment members).trace .packed total done ++ session.trace }) := by
  induction plan generalizing session moment members done with
  | nil =>
    cases becomes
    rw [packedBy_nil]
    rfl
  | cons entry rest ih =>
    rw [packFrom, perform_bind_ok perform_look_eq]
    cases becomes with
    | @cons _ member _ others first later =>
    obtain ⟨title, content⟩ := member
    obtain ⟨named, read⟩ := first
    dsimp only at named read
    by_cases last : moment = some 0
    · have fired : hooks.token.fired session.looked.trace = true :=
        fires.looked.fired_iff.mpr last
      rw [fired, last]
      rfl
    · have unfired : hooks.token.fired session.looked.trace = false := by
        rw [← Bool.not_eq_true]
        exact fun fired => last (fires.looked.fired_iff.mp fired)
      rw [unfired]
      show (get >>= fun current => _ : Job Packing).perform hooks session.looked = _
      rw [perform_bind_ok perform_get]
      dsimp only [Session.looked_world]
      rw [read]
      show (reportPacked (done + content.size) total >>= fun _ => _ : Job Packing).perform
        hooks _ = _
      rw [reportPacked, perform_bind_ok (perform_emit _),
        perform_bind_ok (@ih (session.looked.noting (.packed (done + content.size) total)) _ _ later
          (fires.looked.packed last _ _) _), packedBy_cons last, named]
      have steps := (packedBy (moment.map Nat.pred) others).trace_cons_append (entry.name, content)
        .packed total done session.trace
      exact congrArg (fun trace => (_, { session with trace })) steps.symm

end Job

/-! ## Part 4 — progress calls -/

namespace Archive

/-- The number of bytes of the first members. -/
def sizeUpTo (archive : Archive) (count : Nat) : Nat :=
  total ((archive.members.take count).map fun member => member.2.size)

/-- **The progress calls** after each member: how many bytes there are so far, of how many. -/
def progress (archive : Archive) : List (Nat × Nat) :=
  (List.range archive.members.length).map fun earlier =>
    (archive.sizeUpTo (earlier + 1), archive.size)

theorem length_progress (archive : Archive) :
    archive.progress.length = archive.members.length := by
  rw [progress, List.length_map, List.length_range]

theorem sizeUpTo_mono (archive : Archive) {count more : Nat} (within : count ≤ more) :
    archive.sizeUpTo count ≤ archive.sizeUpTo more := by
  obtain ⟨between, shape⟩ := List.take_prefix_take_left (l := archive.members) within
  rw [sizeUpTo, sizeUpTo, ← shape, List.map_append, total_append]
  exact Nat.le_add_right _ _

theorem sizeUpTo_length (archive : Archive) :
    archive.sizeUpTo archive.members.length = archive.size := by
  rw [sizeUpTo, List.take_length, size]

/-- **Progress is made**: the bytes never get fewer, are never more than all, and are all after the
last member. -/
structure ProgressMade (calls : List (Nat × Nat)) : Prop where
  rising : calls.Pairwise fun earlier later => earlier.1 ≤ later.1
  within : ∀ call ∈ calls, call.1 ≤ call.2
  ends : ∀ call ∈ calls.getLast?, call.1 = call.2

theorem progress_made (archive : Archive) : ProgressMade archive.progress where
  rising := by
    refine List.pairwise_map.mpr (List.pairwise_lt_range.imp fun before => ?_)
    exact archive.sizeUpTo_mono (Nat.succ_le_succ (Nat.le_of_lt before))
  within call among := by
    obtain ⟨earlier, inside, rfl⟩ := List.mem_map.mp among
    rw [← archive.sizeUpTo_length]
    exact archive.sizeUpTo_mono (List.mem_range.mp inside)
  ends call last := by
    rw [progress, List.getLast?_map, List.getLast?_range] at last
    by_cases none : archive.members.length = 0
    · rw [if_pos none] at last
      cases last
    · rw [if_neg none] at last
      cases last
      show archive.sizeUpTo (archive.members.length - 1 + 1) = archive.size
      rw [Nat.sub_add_cancel (Nat.pos_of_ne_zero none), sizeUpTo_length]

/-- The calls for the first members are the first calls. -/
theorem take_progress (archive : Archive) (count : Nat) :
    archive.progress.take count =
      (List.range (archive.members.take count).length).map fun earlier =>
        (total (((archive.members.take count).take (earlier + 1)).map fun member => member.2.size),
          archive.size) := by
  rw [progress, ← List.map_take, List.take_range, List.length_take]
  refine List.map_congr_left fun earlier inside => ?_
  have early : earlier + 1 ≤ count :=
    Nat.le_trans (List.mem_range.mp inside) (Nat.min_le_left _ _)
  rw [sizeUpTo, List.take_take, Nat.min_eq_left early]

end Archive

theorem packing_append (later earlier : Trace) :
    Trace.packing (later ++ earlier) = earlier.packing ++ Trace.packing later := by
  rw [Trace.packing, List.reverse_append, List.filterMap_append]
  rfl

/-- **The calls that packing makes.** -/
theorem packing_packSteps (all done : Nat) (members : List (String × ByteArray)) :
    Trace.packing (packSteps .packed all done members).reverse =
      (List.range members.length).map fun earlier =>
        (done + total ((members.take (earlier + 1)).map fun member => member.2.size), all) := by
  induction members generalizing done with
  | nil => rfl
  | cons member rest ih =>
    have first : Trace.packing [.packed (done + member.2.size) all, .looked] =
      [(done + member.2.size, all)] := rfl
    rw [packSteps, List.reverse_cons, List.reverse_cons, List.append_assoc, List.singleton_append,
      packing_append, first, ih, List.length_cons, List.range_succ_eq_map, List.map_cons,
      List.map_map, List.singleton_append]
    refine congrArg₂ List.cons rfl (List.map_congr_left fun earlier _ => ?_)
    show (done + member.2.size + _, all) = (done + (member.2.size + _), all)
    rw [Nat.add_assoc]

/-- Of members that are packed, the calls are the first ones. -/
theorem packing_trace (archive : Archive) (count : Nat) (fault : Option JobError) (trace : Trace) :
    Trace.packing
        (Packing.trace ⟨archive.members.take count, fault⟩ .packed archive.size 0 ++ trace) =
      trace.packing ++ archive.progress.take count := by
  -- A look at the token before the entry that stops packing is no call.
  have steps : Trace.packing
      (Packing.trace ⟨archive.members.take count, fault⟩ .packed archive.size 0) =
        Trace.packing (packSteps .packed archive.size 0 (archive.members.take count)).reverse := by
    cases fault with
    | none => rfl
    | some error => exact (packing_append [.looked] _).trans (List.append_nil _)
  rw [packing_append, steps, packing_packSteps, Archive.take_progress]
  simp only [Nat.zero_add]

/-! ## Part 5 — the file -/

/-- **An archive that is there in full**: the calls are made, the file holds the archive, from which
its members are read back, and nothing else has changed. -/
structure Written (session : Session) (destination : Path) (archive : Archive)
    (ended : Except JobError Archive × Session) : Prop where
  outcome : ended.1 = .ok archive
  calls : ended.2.trace.packing = session.trace.packing ++ archive.progress
  file : ended.2.world.read destination = .ok archive.bytes
  opens : Zip.Fits archive.members →
    Zip.members? archive.bytes = some (archive.members.map Zip.asMember)
  only : ∃ parent name, session.world.target destination = .ok (.entry parent name false) ∧
    session.world.Placed (name :: parent) (.file archive.bytes) ended.2.world

/-- **An archive that is taken back** after some calls: these were made, there is no file, and
nothing else has changed. -/
structure TakenBack (session : Session) (destination : Path) (archive : Archive) (count : Nat)
    (ended : Except JobError Archive × Session) : Prop where
  outcome : ended.1 = .error .canceled
  calls : ended.2.trace.packing = session.trace.packing ++ archive.progress.take count
  counted : (archive.progress.take count).length = count
  gone : ended.2.world.isThere destination = false
  only : ∃ parent name, session.world.target destination = .ok (.entry parent name false) ∧
    ∀ other, ended.2.world.node? other =
      if other = name :: parent then none else session.world.node? other

/-- **How writing an archive ends**, if the token fires after some progress calls, or never.
`members`: the archive has the entries of the plan in order, with the bytes of their sources;
`progress`: its calls go up to all bytes; `created`: a file can be made in a directory, where no
directory is; `refused`: if it cannot, nothing has changed; `canceled`: if an entry is left when the
token fires, the archive is taken back; `written`: if not, it is there. -/
structure WriteEnds (session : Session) (plan : List ArchiveEntry) (destination : Path)
    (moment : Option Nat) (archive : Archive) (ended : Except JobError Archive × Session) :
    Prop where
  members : List.Forall₂ (ArchiveEntry.Becomes session.world) plan archive.members
  names : archive.names = plan.map ArchiveEntry.name
  progress : Archive.ProgressMade archive.progress
  created : (∃ opened, session.world.write destination .empty = .ok opened) ↔
    ∃ parent name, session.world.target destination = .ok (.entry parent name false) ∧
      session.world.IsDirectoryAt parent ∧ ¬ session.world.IsDirectoryAt (name :: parent)
  refused : ∀ fault, session.world.write destination .empty = .error fault →
    ended = (.error (.io fault), session)
  canceled : ∀ opened, session.world.write destination .empty = .ok opened →
    ∀ count ∈ moment, count < plan.length → TakenBack session destination archive count ended
  written : ∀ opened, session.world.write destination .empty = .ok opened →
    (∀ count ∈ moment, plan.length ≤ count) → Written session destination archive ended

namespace Job

theorem perform_write_refused {fault : IoFault} {bytes : ByteArray}
    (refused : session.world.write destination bytes = .error fault) :
    (onDisk (Disk.write destination bytes)).perform hooks session =
      (.error (.io fault), session) := by
  rw [perform_onDisk, Disk.write, Disk.run_change, refused]
  rfl

/-- **A file can be made** in a directory, where no directory is. -/
theorem write_ok_iff {bytes : ByteArray} :
    (∃ opened, world.write destination bytes = .ok opened) ↔
      ∃ parent name, world.target destination = .ok (.entry parent name false) ∧
        world.IsDirectoryAt parent ∧ ¬ world.IsDirectoryAt (name :: parent) := by
  constructor
  · rintro ⟨opened, written⟩
    obtain ⟨parent, name, goal, free, -⟩ := World.write_placed written
    exact ⟨parent, name, goal, World.target_parent goal, free⟩
  · rintro ⟨parent, name, goal, inside, free⟩
    obtain ⟨opened, written, -⟩ := World.write_ok bytes goal inside free
    exact ⟨opened, written⟩

/-- What is done with the file of an archive when packing has ended. -/
def close (destination : Path) (packing : Packing) : Job Archive :=
  match packing.fault with
  | some .canceled => do
    discard destination
    throw .canceled
  | some fault => do
    onDisk (Disk.write destination (Zip.write packing.members))
    throw fault
  | none => do
    onDisk (Disk.write destination (Zip.write packing.members))
    pure ⟨packing.members⟩

/-- Writing an archive: the file is made, the entries are packed, the file is closed. -/
theorem writeArchive_eq (report : Nat → Nat → Job Unit) (plan : List ArchiveEntry)
    (destination : Path) :
    writeArchive report plan destination = (do
      let session ← get
      onDisk (Disk.write destination ByteArray.empty)
      let packing ← packFrom report (expectedSize session.world plan) 0 plan
      close destination packing) := rfl

theorem close_canceled (destination : Path) (members : List (String × ByteArray)) :
    close destination ⟨members, some .canceled⟩ = (do
      discard destination
      throw .canceled) := rfl

theorem close_done (destination : Path) (archive : Archive) :
    close destination ⟨archive.members, none⟩ = (do
      onDisk (Disk.write destination archive.bytes)
      pure archive) := rfl

/-- A file that was erased is not there any more. -/
theorem isThere_eraseTree {bytes : ByteArray}
    (goal : world.target destination = .ok (.entry parent name false))
    (held : world.node? (name :: parent) = some (.file bytes)) :
    (world.eraseTree (name :: parent)).isThere destination = false := by
  have missing : (world.eraseTree (name :: parent)).find destination = .error .notFound := by
    rw [World.find, (World.keepsDirectories_eraseTree held).target goal]
    show World.nodeOf _ (.entry parent name false) = _
    rw [World.nodeOf, World.node?_eraseTree_file held, if_pos rfl]
    rfl
  rw [World.isThere, World.find?, missing]
  rfl

/-- The members of a plan whose sources can be read, as many bytes as were counted. -/
theorem exists_members
    (sources : ∀ entry ∈ plan, entry.source.ReadsBeside world destination) :
    ∃ archive : Archive, List.Forall₂ (ArchiveEntry.Becomes world) plan archive.members ∧
      expectedSize world plan = archive.size := by
  induction plan with
  | nil => exact ⟨⟨[]⟩, .nil, rfl⟩
  | cons entry rest ih =>
    obtain ⟨first, others⟩ := List.forall_mem_cons.mp sources
    obtain ⟨content, read, counted⟩ := first.content
    obtain ⟨archive, becomes, all⟩ := ih others
    refine ⟨⟨(entry.name, content) :: archive.members⟩, .cons ⟨rfl, read⟩ becomes, ?_⟩
    show entry.source.size world + expectedSize world rest = content.size + archive.size
    rw [counted, all]

/-- The names of the members are those of the entries. -/
theorem names_of_becomes (becomes : List.Forall₂ (ArchiveEntry.Becomes world) plan members) :
    members.map Prod.fst = plan.map ArchiveEntry.name := by
  induction becomes with
  | nil => rfl
  | cons first _ ih => rw [List.map_cons, List.map_cons, first.1, ih]

/-- The members are the same with a file at the destination. -/
theorem becomes_placed {node : Node}
    (sources : ∀ entry ∈ plan, entry.source.ReadsBeside before destination)
    (goal : before.target destination = .ok (.entry parent name false))
    (free : ¬ before.IsDirectoryAt (name :: parent))
    (placed : before.Placed (name :: parent) node after)
    (becomes : List.Forall₂ (ArchiveEntry.Becomes before) plan members) :
    List.Forall₂ (ArchiveEntry.Becomes after) plan members := by
  induction becomes with
  | nil => exact .nil
  | cons first _ ih =>
    obtain ⟨own, others⟩ := List.forall_mem_cons.mp sources
    exact .cons ⟨first.1, (own.content_placed goal free placed).trans first.2⟩ (ih others)

section Opened

variable {opened : World} (started : session.world.write destination .empty = .ok opened)
  (sources : ∀ entry ∈ plan, entry.source.ReadsBeside session.world destination)
  (fires : hooks.token.FiresAfter moment session.trace)
  (becomes : List.Forall₂ (ArchiveEntry.Becomes session.world) plan archive.members)
  (counted : expectedSize session.world plan = archive.size)

include started sources fires becomes counted

/-- **Writing stops where packing stops.** -/
theorem perform_writeArchive_opened :
    (writeArchive reportPacked plan destination).perform hooks session =
      (close destination (packedBy moment archive.members)).perform hooks
        { session with
          world := opened
          trace := (packedBy moment archive.members).trace .packed archive.size 0 ++
            session.trace } := by
  obtain ⟨parent, name, goal, free, first⟩ := World.write_placed started
  have packs := @perform_packFrom_until hooks { session with world := opened } plan archive.members
    moment (becomes_placed sources goal free first becomes) fires archive.size 0
  rw [writeArchive_eq, perform_bind_ok perform_get,
    perform_bind_ok (perform_write session started), counted, perform_bind_ok packs]

/-- **An entry is left when the token fires**: the archive is taken back. -/
theorem takenBack_of_left {count : Nat} (moment_is : moment = some count)
    (left : count < plan.length) :
    TakenBack session destination archive count
      ((writeArchive reportPacked plan destination).perform hooks session) := by
  obtain ⟨parent, name, goal, free, first⟩ := World.write_placed started
  have long : plan.length = archive.members.length := becomes.length_eq
  have stops : packedBy moment archive.members =
      ⟨archive.members.take count, some .canceled⟩ := by
    rw [moment_is, packedBy]
    exact if_pos (by rwa [← long])
  have held : opened.node? (name :: parent) = some (.file .empty) := by
    rw [first.nodes, if_pos rfl]
  have removed : opened.removeFile destination = .ok (opened.eraseTree (name :: parent)) := by
    rw [World.removeFile, first.find free goal]
    rfl
  have discards := @perform_discard hooks { session with
    world := opened
    trace := Packing.trace ⟨archive.members.take count, some .canceled⟩ .packed archive.size 0 ++
      session.trace } destination _ removed
  rw [perform_writeArchive_opened started sources fires becomes counted, stops, close_canceled,
    perform_bind_ok discards, perform_throw]
  exact
    { outcome := rfl
      calls := packing_trace archive count (some .canceled) session.trace
      counted := by
        rw [List.length_take, Archive.length_progress, ← long]
        exact Nat.min_eq_left (Nat.le_of_lt left)
      gone := isThere_eraseTree ((first.keepsDirectories free).target goal) held
      only := by
        refine ⟨parent, name, goal, fun other => ?_⟩
        dsimp only
        rw [World.node?_eraseTree_file held, first.nodes]
        by_cases same : other = name :: parent
        · rw [if_pos same, if_pos same]
        · rw [if_neg same, if_neg same, if_neg same] }

/-- **No entry is left when the token fires**: the archive is there in full. -/
theorem written_of_done (done : ∀ count ∈ moment, plan.length ≤ count) :
    Written session destination archive
      ((writeArchive reportPacked plan destination).perform hooks session) := by
  obtain ⟨parent, name, goal, free, first⟩ := World.write_placed started
  have long : plan.length = archive.members.length := becomes.length_eq
  have goes : packedBy moment archive.members = ⟨archive.members, none⟩ := by
    cases moment with
    | none => rfl
    | some count =>
      rw [packedBy]
      exact if_neg (Nat.not_lt.mpr (long ▸ done count rfl))
  obtain ⟨closed, finished, last⟩ := first.write_again archive.bytes goal free
  rw [perform_writeArchive_opened started sources fires becomes counted, goes, close_done,
    perform_bind_ok (perform_write ⟨opened, _, _⟩ finished), perform_pure]
  exact
    { outcome := rfl
      calls := by
        have calls := packing_trace archive archive.members.length none session.trace
        rwa [List.take_length, ← archive.length_progress, List.take_length] at calls
      file := last.read free goal
      opens := Zip.Fits.members?_write
      only := ⟨parent, name, goal, last⟩ }

end Opened

/-- **An archive is written in full, or taken back**, whenever the token fires. -/
theorem writeArchive_ends
    (fires : hooks.token.FiresAfter moment session.trace)
    (sources : ∀ entry ∈ plan, entry.source.ReadsBeside session.world destination) :
    ∃ archive, WriteEnds session plan destination moment archive
      ((writeArchive reportPacked plan destination).perform hooks session) := by
  obtain ⟨archive, becomes, counted⟩ := exists_members sources
  exact ⟨archive,
    { members := becomes
      names := names_of_becomes becomes
      progress := archive.progress_made
      created := write_ok_iff
      refused := fun fault refused => by
        rw [writeArchive, perform_bind_ok perform_get,
          perform_bind_error (perform_write_refused refused)]
      canceled := fun opened started count moment_is left =>
        takenBack_of_left started sources fires becomes counted moment_is left
      written := fun opened started done =>
        written_of_done started sources fires becomes counted done }⟩

end Job

/-! ## Part 6 — two entries -/

/-- A world with a shader, and a directory where an archive might be meant to go. -/
def boxedWorld : World :=
  World.ofNodes [] [([⟨"crate", by decide⟩], .directory),
    ([⟨"lid.vert", by decide⟩, ⟨"crate", by decide⟩], .file ⟨#[1]⟩),
    ([⟨"bay", by decide⟩], .directory)] (by decide) (by decide)

/-- A plan with the shader and a config that is in no file. -/
def boxedPlan : List ArchiveEntry :=
  [⟨"lid.vert", .file ⟨"/crate/lid.vert"⟩⟩, ⟨"index.sl.json", .bytes ⟨#[2, 3]⟩⟩]

/-- The archive of this plan. -/
def boxedArchive : Archive := ⟨[("lid.vert", ⟨#[1]⟩), ("index.sl.json", ⟨#[2, 3]⟩)]⟩

theorem boxed_reads {destination : Path} {target : World.Target}
    (goal : boxedWorld.target destination = .ok target)
    (other : ∀ slashed, target ≠ .entry [⟨"crate", by decide⟩] ⟨"lid.vert", by decide⟩ slashed) :
    ∀ entry ∈ boxedPlan, entry.source.ReadsBeside boxedWorld destination := by
  intro entry among
  simp only [boxedPlan, List.mem_cons, List.not_mem_nil, or_false] at among
  rcases among with rfl | rfl
  · refine ⟨_, _, rfl, by decide, fun parent name slashed leads same => other slashed ?_⟩
    cases same
    exact Except.ok.inj (goal.symm.trans leads)
  · show ByteArray.size ⟨#[2, 3]⟩ < 2 ^ 32
    decide

theorem boxed_becomes {archive : Archive}
    (becomes : List.Forall₂ (ArchiveEntry.Becomes boxedWorld) boxedPlan archive.members) :
    archive = boxedArchive := by
  obtain ⟨members⟩ := archive
  cases becomes with
  | @cons _ shader _ _ first rest =>
    cases rest with
    | @cons _ config _ _ second nothing =>
      cases nothing
      obtain ⟨title, content⟩ := shader
      obtain ⟨name, text⟩ := config
      obtain ⟨rfl, read⟩ := first
      obtain ⟨rfl, given⟩ := second
      cases read
      cases given
      rfl

namespace Job

/-- **Stopped after one of two entries**, nothing is left; otherwise both come back. -/
theorem writeArchive_ends_boxed :
    let hooks : Hooks := { calmHooks with token := .after 1 Event.isPacked }
    let stopped := (writeArchive reportPacked boxedPlan ⟨"/box.zip"⟩).perform hooks
      (.fresh boxedWorld)
    let ended := (writeArchive reportPacked boxedPlan ⟨"/box.zip"⟩).perform calmHooks
      (.fresh boxedWorld)
    stopped.1 = .error .canceled ∧ stopped.2.trace.packing = [(1, 3)] ∧
      stopped.2.world.isThere ⟨"/box.zip"⟩ = false ∧
    ended.1 = .ok boxedArchive ∧ ended.2.trace.packing = [(1, 3), (3, 3)] ∧
      ended.2.world.read ⟨"/box.zip"⟩ = .ok boxedArchive.bytes ∧
      Zip.members? boxedArchive.bytes = some (boxedArchive.members.map Zip.asMember) := by
  intro hooks stopped ended
  have reads := @boxed_reads ⟨"/box.zip"⟩ _ rfl fun _ => nofun
  obtain ⟨opened, started⟩ : ∃ opened, boxedWorld.write ⟨"/box.zip"⟩ .empty = .ok opened :=
    ⟨_, rfl⟩
  have fits : Zip.Fits boxedArchive.members :=
    ⟨by decide, by decide, by decide +kernel, by decide +kernel⟩
  obtain ⟨first, early⟩ := @writeArchive_ends hooks (.fresh boxedWorld) _ _ _
    (Token.after_firesAfter 1) reads
  obtain ⟨second, late⟩ := @writeArchive_ends calmHooks (.fresh boxedWorld) _ _ _
    (Token.never_firesAfter []) reads
  cases boxed_becomes early.members
  cases boxed_becomes late.members
  have back : TakenBack (.fresh boxedWorld) ⟨"/box.zip"⟩ boxedArchive 1 stopped :=
    early.canceled opened started 1 rfl (by decide)
  have whole : Written (.fresh boxedWorld) ⟨"/box.zip"⟩ boxedArchive ended :=
    late.written opened started fun _ => nofun
  have calls : boxedArchive.progress = [(1, 3), (3, 3)] := by decide
  exact ⟨back.outcome, back.calls.trans (by rw [calls]; rfl), back.gone, whole.outcome,
    whole.calls.trans (by rw [calls]; rfl), whole.file, whole.opens fits⟩

/-- **An archive cannot take the place of a directory**, though its own directory is there: no call
is made and nothing is changed. -/
theorem writeArchive_ends_onto_directory :
    (∀ entry ∈ boxedPlan, entry.source.ReadsBeside boxedWorld ⟨"/bay"⟩) ∧
      calmHooks.token.FiresAfter none [] ∧ boxedWorld.find ⟨"/"⟩ = .ok ([], .directory) ∧
      (writeArchive reportPacked boxedPlan ⟨"/bay"⟩).perform calmHooks (.fresh boxedWorld) =
        (.error (.io .isADirectory), .fresh boxedWorld) :=
  ⟨@boxed_reads ⟨"/bay"⟩ _ rfl fun _ => nofun, Token.never_firesAfter _, rfl, rfl⟩

end Job

end ShaderForge

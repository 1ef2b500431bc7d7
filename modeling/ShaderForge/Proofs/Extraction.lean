/-
**What unpacking does to the files.**

Members are written one after the other (`placeAll`), and each is written where its name leads from
the root (`Member.landing?`). Whatever becomes of a member, nothing outside of the root is touched
(`placeMember_changes`), and if nothing goes wrong then the file at its landing is the only one that
changes (`placeMember_lands`). So a run of members leaves at every location what the last one with
that landing holds, and every other file as it was (`placeAll_unpacks`).

* `perform_extract`: for a job whose token never fires, unpacking is a look at the archive and a run
  of its members on the files; besides the files it leaves only looks at the token behind.
-/

import ShaderForge.Archive.Extract
import ShaderForge.Proofs.Confinement
import ShaderForge.Proofs.Perform
import ShaderForge.Zip.Writer

namespace ShaderForge

open World (ChangedBelow Prepared)

variable {world before middle after : World} {place landing : Location} {root : Path}

namespace Zip

variable {member : Member} {members : List Member}

/-! ## Part 1 — where members land -/

/-- **The place where a member lands**: its name from the root on, with `.` and `..` resolved. -/
def Member.landing? (member : Member) (place : Location) : Option Location :=
  World.settle place (Path.parts ⟨member.name⟩)

/-- **The last member that is written to a location.** -/
def lastAt? (place location : Location) (members : List Member) : Option Member :=
  (members.filter Member.isWritten).reverse.find? fun member =>
    decide (member.landing? place = some location)

theorem lastAt?_cons (location : Location) (member : Member) (members : List Member) :
    lastAt? place location (member :: members) =
      (lastAt? place location members).or
        (if member.isWritten ∧ member.landing? place = some location then some member
          else none) := by
  unfold lastAt?
  by_cases written : member.isWritten = true
  · rw [List.filter_cons_of_pos written, List.reverse_cons, List.find?_append]
    by_cases here : member.landing? place = some location
    · rw [if_pos ⟨written, here⟩, List.find?_cons_of_pos (by simpa using here)]
    · rw [if_neg fun both => here both.2, List.find?_cons_of_neg (by simpa using here)]
      rfl
  · rw [List.filter_cons_of_neg written, if_neg fun both => written both.1, Option.or_none]

/-- The order of extraction leaves nothing out. -/
theorem mem_extractionOrder : member ∈ extractionOrder members ↔ member ∈ members := by
  unfold extractionOrder
  rw [List.mem_append, List.mem_filter, List.mem_filter]
  cases member.isLog <;> simp

/-- The files among the members, in the order in which they are written: the log last. -/
theorem filter_extractionOrder (members : List Member) :
    (extractionOrder members).filter Member.isWritten =
      (members.filter fun member => member.isWritten && !member.isLog) ++
        members.filter fun member => member.isWritten && member.isLog := by
  rw [extractionOrder, List.filter_append, List.filter_filter, List.filter_filter]

/-! ## Part 2 — one member -/

/-- All paths that a member needs stay confined to a location, whatever changes below it. -/
def Keeps (place : Location) (root : Path) (world : World) (member : Member) : Prop :=
  isSafeName member.name = true → ∀ other, other.LiesOn (member.target root) →
    ∀ later, ChangedBelow place world later → World.Confines place other later

theorem keeps_of_directory (there : world.find root = .ok (place, .directory)) (member : Member) :
    Keeps place root world member :=
  fun safe _ on _ changed => World.confines_of_safe there safe on changed

theorem Keeps.later (keeps : Keeps place root before member)
    (changed : ChangedBelow place before after) : Keeps place root after member :=
  fun safe other on later more => keeps safe other on later (changed.trans more)

theorem makeParent_prepares (keeps : Keeps place root world member)
    (safe : isSafeName member.name = true) :
    Prepared place world ((makeParent (member.target root)).run.run world).2 := by
  unfold makeParent
  split
  · exact Prepared.refl place world
  · next parent above =>
    exact World.makeDirectories_prepares fun other on =>
      keeps safe other (on.trans (Path.liesOn_of_parent? above))

/-- A file that is written replaces nothing but a file. -/
theorem write_changes {target : Path} {bytes : ByteArray}
    (confined : World.Confines place target world)
    (written : world.write target bytes = .ok after) : ChangedBelow place world after := by
  obtain ⟨parent, entry, goal, free, placed⟩ := World.write_placed written
  refine ChangedBelow.of_placed placed (confined parent entry false goal free) fun held found => ?_
  cases held with
  | directory => exact absurd found free
  | file bytes => rfl

/-- The three steps of a file: its directory, its bytes, and the fault of the member, if any. -/
theorem writeMember_cases {outcome : Except IoFault PUnit} {target : Path}
    (done : (writeMember target member).run.run world = (outcome, after)) :
    (∃ fault, (makeParent target).run.run world = (.error fault, after) ∧ outcome = .error fault) ∨
      ∃ middle, (makeParent target).run.run world = (.ok ⟨⟩, middle) ∧
        ((∃ fault, outcome = .error fault ∧ after = middle) ∨
          middle.write target member.data = .ok after) := by
  rcases Disk.run_bind_cases done with failed | ⟨_, middle, made, rest⟩
  · exact .inl failed
  · refine .inr ⟨middle, made, ?_⟩
    rw [Disk.run_bind, Disk.write, Disk.run_change] at rest
    cases written : middle.write target member.data with
    | error fault =>
      rw [written] at rest
      cases rest
      exact .inl ⟨fault, rfl, rfl⟩
    | ok later =>
      rw [written] at rest
      refine .inr ?_
      cases stop : member.fault with
      | some fault =>
        rw [stop] at rest
        cases rest
        rfl
      | none =>
        rw [stop] at rest
        cases rest
        rfl

/-- **What is done with a member**: nothing, a directory made, or a file written. -/
theorem placeMember_cases (root : Path) (member : Member) :
    (member.isWritten = false ∧ placeMember root member = pure ⟨⟩) ∨
      (isSafeName member.name = true ∧ member.isWritten = false ∧
        placeMember root member = Disk.makeDirectories (member.target root)) ∨
      (isSafeName member.name = true ∧ member.isWritten = true ∧
        placeMember root member = writeMember (member.target root) member) := by
  unfold placeMember Member.isWritten
  cases isSafeName member.name with
  | false => exact .inl ⟨rfl, rfl⟩
  | true =>
    cases isDirectoryName member.name with
    | true => exact .inr (.inl ⟨rfl, rfl, rfl⟩)
    | false => exact .inr (.inr ⟨rfl, rfl, rfl⟩)

/-- **A member changes nothing outside of where its paths are confined.** -/
theorem placeMember_changes (keeps : Keeps place root world member)
    {outcome : Except IoFault PUnit}
    (done : (placeMember root member).run.run world = (outcome, after)) :
    ChangedBelow place world after := by
  rcases placeMember_cases root member with ⟨-, nothing⟩ | ⟨safe, -, directory⟩ | ⟨safe, -, file⟩
  · rw [nothing] at done
    cases done
    exact ChangedBelow.refl place world
  · have prepared := World.makeDirectories_prepares (keeps safe)
    rw [directory] at done
    rw [done] at prepared
    exact prepared.changed
  · have prepared := makeParent_prepares keeps safe
    rw [file] at done
    rcases writeMember_cases done with ⟨fault, failed, -⟩ | ⟨middle, made, rest⟩
    · rw [failed] at prepared
      exact prepared.changed
    · rw [made] at prepared
      rcases rest with ⟨fault, -, rfl⟩ | written
      · exact prepared.changed
      · exact prepared.changed.trans (write_changes
          (keeps safe _ (Path.LiesOn.refl _) middle prepared.changed) written)

/-- What a member does to the files if nothing goes wrong: if it has to be written, it lands below
the root, and the file there is the only one that changes. -/
structure Lands (place : Location) (member : Member) (before after : World) : Prop where
  landed : member.isWritten = true →
    ∃ landing, member.landing? place = some landing ∧ place <:+ landing
  files : ∀ other, after.fileAt? other =
    if member.isWritten = true ∧ member.landing? place = some other then some member.data
    else before.fileAt? other

/-- A member that is not written only prepares directories. -/
theorem Lands.of_prepared (unwritten : member.isWritten = false)
    (prepared : Prepared place before after) : Lands place member before after where
  landed written := by
    rw [unwritten] at written
    cases written
  files other := by
    rw [if_neg (by rw [unwritten]; simp), prepared.files]

/-- **One member below a root** lands. -/
theorem placeMember_lands (there : world.find root = .ok (place, .directory))
    (done : (placeMember root member).run.run world = (.ok ⟨⟩, after)) :
    Lands place member world after := by
  have keeps := keeps_of_directory there member
  rcases placeMember_cases root member with ⟨unwritten, nothing⟩ | ⟨safe, unwritten, directory⟩ |
    ⟨safe, isWritten, file⟩
  · rw [nothing] at done
    cases done
    exact Lands.of_prepared unwritten (Prepared.refl place world)
  · have prepared := World.makeDirectories_prepares (keeps safe)
    rw [directory] at done
    rw [done] at prepared
    exact Lands.of_prepared unwritten prepared
  · have prepared := makeParent_prepares keeps safe
    rw [file] at done
    rcases writeMember_cases done with ⟨fault, -, failed⟩ | ⟨middle, made, rest⟩
    · cases failed
    · rw [made] at prepared
      rcases rest with ⟨fault, failed, -⟩ | written
      · cases failed
      · have stays := prepared.changed.keepsDirectories.find_directory there
        obtain ⟨parent, entry, goal, free, placed⟩ := World.write_placed written
        have lands : member.landing? place = some (entry :: parent) :=
          World.target_settles stays safe goal free
        have below := World.target_below stays safe (Path.LiesOn.refl _) goal free
        refine ⟨fun _ => ⟨entry :: parent, lands, below⟩, fun other => ?_⟩
        rw [placed.fileAt?_file, prepared.files, lands]
        by_cases same : other = entry :: parent
        · rw [if_pos same, if_pos ⟨isWritten, by rw [same]⟩]
        · rw [if_neg same, if_neg fun both => same (Option.some.inj both.2).symm]

/-! ## Part 3 — members one after the other -/

/-- Members written below a root, in the given order. -/
def placeAll (root : Path) : List Member → Disk (List Path)
  | [] => pure []
  | member :: rest => do
    placeMember root member
    let later ← placeAll root rest
    pure (if member.isWritten then member.target root :: later else later)

theorem run_placeAll_cons (rest : List Member) :
    (placeAll root (member :: rest)).run.run world =
      match (placeMember root member).run.run world with
      | (.error fault, middle) => (.error fault, middle)
      | (.ok _, middle) =>
        match (placeAll root rest).run.run middle with
        | (.error fault, after) => (.error fault, after)
        | (.ok later, after) =>
          (.ok (if member.isWritten then member.target root :: later else later), after) := by
  rw [placeAll, Disk.run_bind]
  rcases (placeMember root member).run.run world with ⟨outcome, middle⟩
  cases outcome with
  | error fault => rfl
  | ok value =>
    dsimp only
    rw [Disk.run_bind]
    rcases (placeAll root rest).run.run middle with ⟨listed, after⟩
    cases listed with
    | error fault => rfl
    | ok later => rfl

/-- **A run of members changes nothing outside of where their paths are confined.** -/
theorem placeAll_changes (keeps : ∀ member ∈ members, Keeps place root world member)
    {outcome : Except IoFault (List Path)}
    (done : (placeAll root members).run.run world = (outcome, after)) :
    ChangedBelow place world after := by
  induction members generalizing world outcome with
  | nil =>
    cases done
    exact ChangedBelow.refl place _
  | cons member rest ih =>
    have first : ∀ {outcome middle}, (placeMember root member).run.run world = (outcome, middle) →
        ChangedBelow place world middle :=
      fun placed => placeMember_changes (keeps member List.mem_cons_self) placed
    rw [run_placeAll_cons] at done
    split at done
    · next fault middle failed =>
      cases done
      exact first failed
    · next middle placed =>
      have later : ∀ other ∈ rest, Keeps place root middle other := fun other among =>
        (keeps other (List.mem_cons_of_mem _ among)).later (first placed)
      split at done
      · next fault last failed =>
        cases done
        exact (first placed).trans (ih later failed)
      · next listed last ran =>
        cases done
        exact (first placed).trans (ih later ran)

/-- **What a run of members leaves if nothing goes wrong**: every location holds what the last
member with that landing brought, or what it held. -/
structure Unpacked (root : Path) (place : Location) (members : List Member) (paths : List Path)
    (before after : World) : Prop where
  paths : paths = (members.filter Member.isWritten).map (Member.target root)
  landed : ∀ member ∈ members, member.isWritten = true →
    ∃ landing, member.landing? place = some landing ∧ place <:+ landing
  files : ∀ other, after.fileAt? other =
    match lastAt? place other members with
    | some member => some member.data
    | none => before.fileAt? other

/-- One member before a run of members. -/
theorem Unpacked.cons {later : List Path} (first : Lands place member before middle)
    (rest : Unpacked root place members later middle after) :
    Unpacked root place (member :: members)
      (if member.isWritten then member.target root :: later else later) before after where
  paths := by
    rw [rest.paths]
    by_cases written : member.isWritten = true
    · rw [if_pos written, List.filter_cons_of_pos written, List.map_cons]
    · rw [if_neg written, List.filter_cons_of_neg written]
  landed other among written := by
    rcases List.mem_cons.mp among with rfl | inside
    · exact first.landed written
    · exact rest.landed other inside written
  files other := by
    rw [rest.files, lastAt?_cons]
    cases lastAt? place other members with
    | some last => rfl
    | none =>
      rw [Option.none_or]
      show middle.fileAt? other = _
      rw [first.files]
      by_cases here : member.isWritten = true ∧ member.landing? place = some other
      · rw [if_pos here, if_pos here]
      · rw [if_neg here, if_neg here]

/-- **A run of members** leaves what the last ones brought. -/
theorem placeAll_unpacks {paths : List Path} (there : world.find root = .ok (place, .directory))
    (done : (placeAll root members).run.run world = (.ok paths, after)) :
    Unpacked root place members paths world after := by
  induction members generalizing world paths with
  | nil =>
    cases done
    exact ⟨rfl, fun _ among => absurd among List.not_mem_nil, fun _ => rfl⟩
  | cons member rest ih =>
    rw [run_placeAll_cons] at done
    split at done
    · cases done
    · next middle placed =>
      split at done
      · cases done
      · next later last listed =>
        cases done
        have changed := placeMember_changes (keeps_of_directory there member) placed
        have stays := changed.keepsDirectories.find_directory there
        exact Unpacked.cons (placeMember_lands there placed) (ih stays listed)

end Zip

/-! ## Part 4 — the job -/

namespace Job

open Zip (Member)

variable {hooks : Hooks} {session : Session} {archive : ByteArray}

/-- What unpacking an archive comes to, and the world that it leaves. -/
def unpack (archive : ByteArray) (root : Path) (world : World) :
    Except JobError (List Path) × World :=
  match Zip.members? archive with
  | none => (.error .archive, world)
  | some members =>
    let (outcome, after) := (Zip.placeAll root (Zip.extractionOrder members)).run.run world
    (liftIo outcome, after)

theorem perform_placeMembers (quiet : hooks.Quiet) (members : List Member) :
    ∃ looks, (placeMembers root members).perform hooks session =
      (liftIo ((Zip.placeAll root members).run.run session.world).1,
        { session with
          world := ((Zip.placeAll root members).run.run session.world).2
          trace := List.replicate looks .looked ++ session.trace }) := by
  induction members generalizing session with
  | nil => exact ⟨0, rfl⟩
  | cons member rest ih =>
    rw [placeMembers, perform_bind_ok (perform_checkpoint quiet), perform_bind, perform_onDisk,
      Session.looked_world, Zip.run_placeAll_cons]
    rcases (Zip.placeMember root member).run.run session.world with ⟨outcome, middle⟩
    cases outcome with
    | error fault => exact ⟨1, rfl⟩
    | ok value =>
      obtain ⟨looks, goes⟩ := @ih { session.looked with world := middle }
      refine ⟨looks + 1, ?_⟩
      have counted : List.replicate (looks + 1) Event.looked ++ session.trace =
          List.replicate looks .looked ++ (.looked :: session.trace) := by
        rw [List.replicate_succ', List.append_assoc, List.singleton_append]
      show (placeMembers root rest >>= fun later => _).perform hooks _ = _
      rw [perform_bind, goes, counted]
      dsimp only
      rcases (Zip.placeAll root rest).run.run middle with ⟨listed, last⟩
      cases listed with
      | error fault => rfl
      | ok later => rfl

/-- **Unpacking leaves files and looks at the token**, nothing else. -/
theorem perform_extract (quiet : hooks.Quiet) :
    ∃ looks, (extract archive root).perform hooks session =
      ((unpack archive root session.world).1,
        { session with
          world := (unpack archive root session.world).2
          trace := List.replicate looks .looked ++ session.trace }) := by
  unfold extract unpack
  cases Zip.members? archive with
  | none => exact ⟨0, rfl⟩
  | some members => exact perform_placeMembers quiet (Zip.extractionOrder members)

/-- **What unpacking an archive does to the files**, when the root is a directory and the token
never fires. Whatever it comes to, nothing outside of the root is touched, and the root is a
directory still. If it succeeds, the files with safe names were written in the order of the archive,
the log last: their paths are given, each landed below the root, every location holds what the last
of them with that landing brought, and every other file is as it was. -/
theorem extract_confined_and_exact (quiet : hooks.Quiet)
    (there : session.world.find root = .ok (place, .directory))
    {outcome : Except JobError (List Path)} {left : Session}
    (done : (extract archive root).perform hooks session = (outcome, left)) :
    (∀ other, ¬ place <:+ other → left.world.node? other = session.world.node? other) ∧
      left.world.find root = .ok (place, .directory) ∧ left.world.cwd = session.world.cwd ∧
      ∀ paths, outcome = .ok paths → ∃ members written, Zip.members? archive = some members ∧
        written = (members.filter fun member => member.isWritten && !member.isLog) ++
          members.filter (fun member => member.isWritten && member.isLog) ∧
        paths = written.map (Member.target root) ∧
        (∀ member ∈ written,
          ∃ landing, member.landing? place = some landing ∧ place <:+ landing) ∧
        ∀ other, left.world.fileAt? other =
          match written.reverse.find? fun member => decide (member.landing? place = some other) with
          | some member => some member.data
          | none => session.world.fileAt? other := by
  obtain ⟨looks, performed⟩ := @perform_extract root hooks session archive quiet
  rw [performed] at done
  cases done
  unfold unpack
  cases opened : Zip.members? archive with
  | none =>
    refine ⟨fun _ _ => rfl, there, rfl, fun paths failed => ?_⟩
    cases failed
  | some members =>
    obtain ⟨outcome, after, ran⟩ : ∃ outcome after,
        (Zip.placeAll root (Zip.extractionOrder members)).run.run session.world =
          (outcome, after) := ⟨_, _, rfl⟩
    have changed := Zip.placeAll_changes (fun member _ => Zip.keeps_of_directory there member) ran
    dsimp only
    rw [ran]
    refine ⟨changed.outside, changed.keepsDirectories.find_directory there, changed.cwd,
      fun paths succeeded => ?_⟩
    cases outcome with
    | error fault => cases succeeded
    | ok listed =>
      cases succeeded
      have unpacked := Zip.placeAll_unpacks there ran
      have order := Zip.filter_extractionOrder members
      refine ⟨members, _, rfl, rfl, ?_, fun member among => ?_, fun other => ?_⟩
      · rw [unpacked.paths, order]
      · rw [← order] at among
        obtain ⟨among, written⟩ := List.mem_filter.mp among
        exact unpacked.landed member among written
      · rw [← order]
        exact unpacked.files other

/-- Two members with one landing, where an old file was. -/
theorem extract_confined_and_exact_twice :
    let world := World.ofNodes [] [([⟨"r", by decide⟩], .directory),
      ([⟨"o", by decide⟩], .file ⟨#[9]⟩),
      ([⟨"b", by decide⟩, ⟨"r", by decide⟩], .file ⟨#[7]⟩)] (by decide) (by decide)
    let hooks : Hooks := ⟨.never, fun _ => none, fun _ _ world => .ok (.timedOut, world),
      fun _ _ => .answered 200 [] false⟩
    ∃ left, (extract (Zip.write [("b", ⟨#[1]⟩), ("x/../b", ⟨#[3]⟩)]) ⟨"/r"⟩).perform hooks
        (Session.fresh world) = (.ok [⟨"/r/b"⟩, ⟨"/r/x/../b"⟩], left) ∧
      left.world.find ⟨"/r"⟩ = .ok ([⟨"r", by decide⟩], .directory) ∧
      left.world.fileAt? [⟨"b", by decide⟩, ⟨"r", by decide⟩] = some ⟨#[3]⟩ := by
  intro world hooks
  have quiet : hooks.Quiet := fun _ => rfl
  have there : world.find ⟨"/r"⟩ = .ok ([⟨"r", by decide⟩], .directory) := rfl
  have listed : ((extract (Zip.write [("b", ⟨#[1]⟩), ("x/../b", ⟨#[3]⟩)]) ⟨"/r"⟩).perform hooks
      (Session.fresh world)).1.toOption = some [⟨"/r/b"⟩, ⟨"/r/x/../b"⟩] := by decide +kernel
  have opened : Zip.members? (Zip.write [("b", ⟨#[1]⟩), ("x/../b", ⟨#[3]⟩)]) =
      some [⟨"b", ⟨#[1]⟩, none⟩, ⟨"x/../b", ⟨#[3]⟩, none⟩] := by decide +kernel
  rcases ran : (extract (Zip.write [("b", ⟨#[1]⟩), ("x/../b", ⟨#[3]⟩)]) ⟨"/r"⟩).perform hooks
    (Session.fresh world) with ⟨outcome, left⟩
  have stated := extract_confined_and_exact quiet there ran
  rw [ran] at listed
  cases outcome with
  | error fault => cases listed
  | ok paths =>
    obtain ⟨members, written, found, order, -, -, files⟩ := stated.2.2.2 paths rfl
    cases listed
    rw [opened] at found
    cases found
    refine ⟨left, rfl, stated.2.1, ?_⟩
    rw [files, order]
    rfl

end Job

end ShaderForge

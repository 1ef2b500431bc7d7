/-
**What a cancelled extraction leaves of the log.**

The log of the service is written last, so that an extraction that is cancelled leaves none behind.
What is written last is what is named like the log: one name, or the same with `./` in front of it.
Other names lead to the same place (`x/../.starlight.log`), and a name may come twice.

So an extraction that is cancelled leaves no log where none was, whenever the token fires, if only
members named like the log lead to its place, and at most one of them is there
(`extract_canceled_logless`); a member with another name may leave one
(`canceled_extraction_leaves_log`).

* `placeMember_leaves`: a member whose path avoids a place leaves what is there;
* `placeMembers_canceled`: what is left when a run of members is cancelled before the last one.
-/

import Mathlib.Data.List.Infix
import ShaderForge.Proofs.TwinWorlds

namespace ShaderForge

variable {world before middle after : World} {place : Location} {path other : Path}

namespace World

/-! ## Part 1 — places that are left alone -/

/-- **What is at a place stays**, and paths begin where they began. -/
structure Leaves (place : Location) (before after : World) : Prop where
  cwd : after.cwd = before.cwd
  node : after.node? place = before.node? place

namespace Leaves

theorem refl (place : Location) (world : World) : Leaves place world world := ⟨rfl, rfl⟩

theorem trans (first : Leaves place before middle) (second : Leaves place middle after) :
    Leaves place before after :=
  ⟨second.cwd.trans first.cwd, second.node.trans first.node⟩

/-- A node set elsewhere. -/
theorem of_placed {there : Location} {node : Node} (placed : before.Placed there node after)
    (elsewhere : there ≠ place) : Leaves place before after where
  cwd := placed.cwd
  node := by
    rw [placed.nodes, if_neg]
    intro same
    exact elsewhere same.symm

end Leaves

/-- What lies on a path that avoids a place has its target elsewhere. -/
theorem Avoids.elsewhere (avoids : world.Avoids place path) (on : other.LiesOn path)
    (cwd : after.cwd = world.cwd) {parent : Location} {entry : EntryName} {slashed : Bool}
    (goal : after.target other = .ok (.entry parent entry slashed)) : entry :: parent ≠ place := by
  intro same
  rcases avoids.of_liesOn on with none | away
  · rw [(target_ok goal).2] at none
    cases none
  · apply away.of_cwd cwd other.parts (List.prefix_refl _)
    rw [target_settle goal, same]

end World

/-! ## Part 2 — directories and members -/

namespace Disk

/-- **A directory and every missing one above it**: what making each of them keeps is kept by all,
whether or not all of them can be made. -/
theorem makeDirectories_holds {Holds : World → Prop} (holds : Holds world)
    (made : ∀ other, other.LiesOn path → ∀ before after, Holds before →
      before.makeDirectory other = .ok after → Holds after) :
    Holds ((makeDirectories path).run.run world).2 := by
  have twin : ∀ other, other.LiesOn path → ∀ left right : World, left = right ∧ Holds left →
      World.Twin (fun left right => left = right ∧ Holds left) (left.makeDirectory other)
        (right.makeDirectory other) := by
    rintro other on left right ⟨rfl, before⟩
    cases makes : left.makeDirectory other with
    | error fault => exact .failed fault
    | ok after => exact .changed ⟨rfl, made other on left after before makes⟩
  have runs := agree_makeDirectories ⟨rfl, holds⟩
    (fun other _ left right same => by rw [same.1]) twin
  exact runs.worlds.2

end Disk

namespace Zip

variable {root : Path} {member : Member}

/-- A directory on a path that avoids a place is made elsewhere. -/
theorem makeDirectory_leaves (avoids : world.Avoids place path) (on : other.LiesOn path)
    (before after : World) (leaves : World.Leaves place world before)
    (made : before.makeDirectory other = .ok after) : World.Leaves place world after := by
  obtain ⟨parent, entry, slashed, goal, -, placed⟩ := World.makeDirectory_placed made
  exact leaves.trans (.of_placed placed (avoids.elsewhere on leaves.cwd goal))

/-- A file whose path avoids a place, with the directories above it. -/
theorem writeMember_leaves (avoids : world.Avoids place path) {outcome : Except IoFault PUnit}
    (done : (writeMember path member).run.run world = (outcome, after)) :
    World.Leaves place world after := by
  have parents : World.Leaves place world ((makeParent path).run.run world).2 := by
    unfold makeParent
    split
    · exact World.Leaves.refl place world
    · next parent above =>
      exact Disk.makeDirectories_holds (World.Leaves.refl place world) fun other on =>
        makeDirectory_leaves avoids (on.trans (Path.liesOn_of_parent? above))
  rcases writeMember_cases done with ⟨fault, failed, -⟩ | ⟨middle, made, rest⟩
  · rw [failed] at parents
    exact parents
  · rw [made] at parents
    rcases rest with ⟨fault, -, rfl⟩ | written
    · exact parents
    · obtain ⟨parent, entry, goal, -, placed⟩ := World.write_placed written
      exact parents.trans (.of_placed placed
        (avoids.elsewhere (Path.LiesOn.refl path) parents.cwd goal))

/-- **A member whose path avoids a place leaves what is there**, whatever becomes of it. -/
theorem placeMember_leaves
    (avoids : isSafeName member.name = true → world.Avoids place (member.target root))
    {outcome : Except IoFault PUnit}
    (done : (placeMember root member).run.run world = (outcome, after)) :
    World.Leaves place world after := by
  rcases placeMember_cases root member with ⟨-, nothing⟩ | ⟨safe, -, directory⟩ | ⟨safe, -, file⟩
  · rw [nothing] at done
    cases done
    exact World.Leaves.refl place world
  · have made := Disk.makeDirectories_holds (World.Leaves.refl place world)
      fun other on => makeDirectory_leaves (avoids safe) on
    rw [directory] at done
    rw [done] at made
    exact made
  · rw [file] at done
    exact writeMember_leaves (avoids safe) done

end Zip

/-! ## Part 3 — cancellation -/

namespace Job

open Zip (Member)

variable {hooks : Hooks} {session left : Session} {root : Path} {archive : ByteArray}

/-- **A member of a run that is cancelled**: the run ends before it, or else goes on after it. -/
theorem placeMembers_cons_canceled {member : Member} {rest : List Member}
    (done : (placeMembers root (member :: rest)).perform hooks session =
      (.error .canceled, left)) :
    left = session.looked ∨
      ∃ middle, (Zip.placeMember root member).run.run session.world = (.ok ⟨⟩, middle) ∧
        (placeMembers root rest).perform hooks { session.looked with world := middle } =
          (.error .canceled, left) := by
  rw [placeMembers] at done
  rcases @checkpoint_cases hooks session with fired | passed
  · rw [perform_bind_error fired] at done
    cases done
    exact .inl rfl
  · rw [perform_bind_ok passed, perform_bind, perform_onDisk, Session.looked_world] at done
    refine .inr ?_
    rcases placed : (Zip.placeMember root member).run.run session.world with ⟨outcome, middle⟩
    rw [placed] at done
    cases outcome with
    | error fault => cases done
    | ok value =>
      refine ⟨middle, rfl, ?_⟩
      change (placeMembers root rest >>= fun later => pure _).perform hooks
        { session.looked with world := middle } = _ at done
      rw [perform_bind] at done
      split at done
      · cases done
      · next error last failed =>
        cases done
        exact failed

/-- **A run of members that is cancelled before its last one**: what is at a place that all before
the last one avoid is what was there. -/
theorem placeMembers_canceled {first last : List Member} (short : last.length ≤ 1)
    (avoids : ∀ member ∈ first, Zip.isSafeName member.name = true →
      session.world.Avoids place (member.target root))
    (done : (placeMembers root (first ++ last)).perform hooks session = (.error .canceled, left)) :
    World.Leaves place session.world left.world := by
  induction first generalizing session with
  | nil =>
    cases last with
    | nil => cases done
    | cons member others =>
      have alone : others = [] := by
        apply List.eq_nil_of_length_eq_zero
        rw [List.length_cons] at short
        omega
      rw [List.nil_append, alone] at done
      rcases placeMembers_cons_canceled done with rfl | ⟨middle, -, ended⟩
      · exact World.Leaves.refl place session.world
      · -- Nothing is left to be cancelled after the last member.
        cases ended
  | cons member first ih =>
    rcases placeMembers_cons_canceled done with rfl | ⟨middle, placed, rest⟩
    · exact World.Leaves.refl place session.world
    · have here := Zip.placeMember_leaves (avoids member List.mem_cons_self) placed
      refine here.trans (ih (fun other among safe => ?_) rest)
      exact (avoids other (List.mem_cons_of_mem _ among) safe).of_cwd here.cwd

/-- **A cancelled extraction leaves no log where none was**, whenever the token fires: nothing is
where the path of the log leads by its text, only members named like the log lead to that place or
through it, and there is at most one of them. -/
theorem extract_canceled_logless {members : List Member}
    (opened : Zip.members? archive = some members)
    (single : (members.filter Member.isLog).length ≤ 1)
    (leads : World.settle (session.world.start (root.below logName))
      (root.below logName).parts = some place)
    (absent : session.world.node? place = none)
    (known : ∀ member ∈ members, Zip.isSafeName member.name = true → member.isLog = false →
      session.world.Avoids place (member.target root))
    (done : (extract archive root).perform hooks session = (.error .canceled, left)) :
    left.world.isThere (root.below logName) = false := by
  have others : ∀ member ∈ members.filter fun member => !member.isLog,
      Zip.isSafeName member.name = true → session.world.Avoids place (member.target root) := by
    intro member among safe
    obtain ⟨inside, unlike⟩ := List.mem_filter.mp among
    exact known member inside safe (by simpa using unlike)
  unfold extract at done
  rw [opened] at done
  have leaves : World.Leaves place session.world left.world :=
    placeMembers_canceled single others done
  unfold World.isThere World.find?
  cases found : left.world.find (root.below logName) with
  | error fault => rfl
  | ok goal =>
    obtain ⟨goal, node⟩ := goal
    have starts := World.start_of_cwd leaves.cwd (root.below logName)
    have same : goal = place := by
      have settled := World.settle_of_find found
      rw [starts, leads] at settled
      exact (Option.some.inj settled).symm
    have nothing : left.world.node? place = none := leaves.node.trans absent
    rw [← same, World.node?_of_find found] at nothing
    cases nothing

/-- Cancelled between the only other member and the log. -/
theorem extract_canceled_logless_between :
    let world := World.ofNodes [] [([⟨"r", by decide⟩], .directory)] (by decide) (by decide)
    let hooks : Hooks := ⟨.after 2 fun _ => true, fun _ => none,
      fun _ _ world => .ok (.timedOut, world), fun _ _ => .answered 200 [] false⟩
    ∃ left, (extract (Zip.write [(".starlight.log", ⟨#[1]⟩), ("a", ⟨#[2]⟩)]) ⟨"/r"⟩).perform hooks
        (Session.fresh world) = (.error .canceled, left) ∧
      (left.world.read ⟨"/r/a"⟩).toOption = some ⟨#[2]⟩ ∧
      left.world.isThere ⟨"/r/.starlight.log"⟩ = false := by
  intro world hooks
  have opened : Zip.members? (Zip.write [(".starlight.log", ⟨#[1]⟩), ("a", ⟨#[2]⟩)]) =
      some [⟨".starlight.log", ⟨#[1]⟩, none⟩, ⟨"a", ⟨#[2]⟩, none⟩] := by decide +kernel
  have inOrder : extract (Zip.write [(".starlight.log", ⟨#[1]⟩), ("a", ⟨#[2]⟩)]) ⟨"/r"⟩ =
      placeMembers ⟨"/r"⟩ [⟨"a", ⟨#[2]⟩, none⟩, ⟨".starlight.log", ⟨#[1]⟩, none⟩] := by
    rw [extract, opened]
    rfl
  have ended : ((placeMembers ⟨"/r"⟩ [⟨"a", ⟨#[2]⟩, none⟩,
      ⟨".starlight.log", ⟨#[1]⟩, none⟩]).perform hooks (Session.fresh world)).1 =
        .error .canceled := eq_canceled (by decide +kernel)
  have written : (((placeMembers ⟨"/r"⟩ [⟨"a", ⟨#[2]⟩, none⟩,
      ⟨".starlight.log", ⟨#[1]⟩, none⟩]).perform hooks (Session.fresh world)).2.world.read
        ⟨"/r/a"⟩).toOption = some ⟨#[2]⟩ := by decide +kernel
  rw [← inOrder] at ended written
  rcases done : (extract (Zip.write [(".starlight.log", ⟨#[1]⟩), ("a", ⟨#[2]⟩)]) ⟨"/r"⟩).perform
    hooks (Session.fresh world) with ⟨outcome, left⟩
  rw [done] at ended written
  subst ended
  refine ⟨left, rfl, written, ?_⟩
  have single : ([Member.mk ".starlight.log" ⟨#[1]⟩ none, ⟨"a", ⟨#[2]⟩, none⟩].filter
      Member.isLog).length ≤ 1 := by decide
  have leads : World.settle (world.start (Path.below ⟨"/r"⟩ logName))
      (Path.below ⟨"/r"⟩ logName).parts =
        some [⟨".starlight.log", by decide⟩, ⟨"r", by decide⟩] := by rfl
  have absent : world.node? [⟨".starlight.log", by decide⟩, ⟨"r", by decide⟩] = none := by rfl
  have known : ∀ member ∈ [Member.mk ".starlight.log" ⟨#[1]⟩ none, ⟨"a", ⟨#[2]⟩, none⟩],
      Zip.isSafeName member.name = true → member.isLog = false →
        world.Avoids [⟨".starlight.log", by decide⟩, ⟨"r", by decide⟩] (member.target ⟨"/r"⟩) := by
    intro member among safe unlike
    simp only [List.mem_cons, List.not_mem_nil, or_false] at among
    rcases among with rfl | rfl
    · exact absurd unlike (by decide)
    · have apart : ∀ init ∈ (Path.parts ⟨"/r/a"⟩).inits,
          World.settle [] init ≠ some [⟨".starlight.log", by decide⟩, ⟨"r", by decide⟩] := by
        decide +kernel
      exact fun init first => apart init ((List.mem_inits init _).mpr first)
  exact @extract_canceled_logless _ hooks (Session.fresh world) left ⟨"/r"⟩ _ _ opened single leads
    absent known done

/-- **A member with another name for the log's place is written early**, and then a cancelled
extraction leaves a log behind. -/
theorem canceled_extraction_leaves_log :
    ¬ ∀ (hooks : Hooks) (session left : Session) (archive : ByteArray) (root : Path),
      session.world.isThere (root.below logName) = false →
      (extract archive root).perform hooks session = (.error .canceled, left) →
      left.world.isThere (root.below logName) = false := by
  intro claim
  let world := World.ofNodes [] [([⟨"r", by decide⟩], .directory)] (by decide) (by decide)
  let hooks : Hooks := ⟨.after 2 fun _ => true, fun _ => none,
    fun _ _ world => .ok (.timedOut, world), fun _ _ => .answered 200 [] false⟩
  have opened : Zip.members? (Zip.write [(".//.starlight.log", ⟨#[1]⟩), ("a", ⟨#[2]⟩)]) =
      some [⟨".//.starlight.log", ⟨#[1]⟩, none⟩, ⟨"a", ⟨#[2]⟩, none⟩] := by decide +kernel
  have inOrder : extract (Zip.write [(".//.starlight.log", ⟨#[1]⟩), ("a", ⟨#[2]⟩)]) ⟨"/r"⟩ =
      placeMembers ⟨"/r"⟩ [⟨".//.starlight.log", ⟨#[1]⟩, none⟩, ⟨"a", ⟨#[2]⟩, none⟩] := by
    rw [extract, opened]
    rfl
  have ended : ((placeMembers ⟨"/r"⟩ [⟨".//.starlight.log", ⟨#[1]⟩, none⟩,
      ⟨"a", ⟨#[2]⟩, none⟩]).perform hooks (Session.fresh world)).1 = .error .canceled :=
    eq_canceled (by decide +kernel)
  have there : ((placeMembers ⟨"/r"⟩ [⟨".//.starlight.log", ⟨#[1]⟩, none⟩,
      ⟨"a", ⟨#[2]⟩, none⟩]).perform hooks (Session.fresh world)).2.world.isThere
        (Path.below ⟨"/r"⟩ logName) = true := by decide +kernel
  have absent : world.isThere (Path.below ⟨"/r"⟩ logName) = false := by decide +kernel
  rw [← inOrder] at ended there
  rcases done : (extract (Zip.write [(".//.starlight.log", ⟨#[1]⟩), ("a", ⟨#[2]⟩)]) ⟨"/r"⟩).perform
    hooks (Session.fresh world) with ⟨outcome, left⟩
  rw [done] at ended there
  subst ended
  rw [claim hooks (Session.fresh world) left _ _ absent done] at there
  cases there

end Job

end ShaderForge

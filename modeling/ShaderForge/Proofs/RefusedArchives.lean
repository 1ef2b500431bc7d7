/-
**Archives that are refused.**

An archive is opened before anything of it is written: each entry that the directory lists is
opened, to see whether it is the log. One entry that is encrypted, packed in an unknown way or
without a header (`Zip.Unopenable`) is enough to refuse the archive (`Zip.members?_eq_none_iff`).
Later an entry is opened once more, to be written; if it opens as it did before, this refuses
nothing (`Job.extractTwice_eq`).

So an extraction that fails because of the archive has changed nothing, wherever the entry that
cannot be opened stands among the others; and nothing is changed either if the token has fired
before the first entry (`Job.extractFile_all_or_nothing`).
-/

import Mathlib.Data.List.Forall2
import ShaderForge.Proofs.Extraction

namespace ShaderForge

variable {hooks : Hooks} {session : Session} {root archive : Path}

/-! ## Part 1 — entries that cannot be opened -/

namespace Zip

variable {bytes : ByteArray} {listing : Listing} {listings : List Listing} {members : List Member}

/-- **An entry that cannot be opened**: it is encrypted, or packed in an unknown way, or there is no
header where it should begin, or a header that is cut off. -/
inductive Unopenable (bytes : ByteArray) (listing : Listing) : Prop
  | encrypted (flagged : listing.flags % 2 = 1)
  | packed (unstored : listing.method ≠ 0) (undeflated : listing.method ≠ 8)
  | headless (unmarked : numberAt? bytes listing.start 4 ≠ some localMark)
  | cut (short : numberAt? bytes (listing.start + 26) 2 = none ∨
      numberAt? bytes (listing.start + 28) 2 = none)

/-- Opening an entry, one check after the other. -/
theorem openMember?_eq (bytes : ByteArray) (listing : Listing) :
    openMember? bytes listing =
      if listing.flags % 2 = 1 ∨ listing.method ≠ 0 ∧ listing.method ≠ 8 then none
      else if numberAt? bytes listing.start 4 ≠ some localMark then none
      else (numberAt? bytes (listing.start + 26) 2).bind fun nameLength =>
        (numberAt? bytes (listing.start + 28) 2).bind fun extraLength =>
          let start := listing.start + 30 + nameLength + extraLength
          some (unpacked listing (bytes.extract start (start + listing.packedSize))) := by
  simp only [openMember?, Bool.or_eq_true, Bool.and_eq_true, decide_eq_true_eq]
  by_cases barred : listing.flags % 2 = 1 ∨ listing.method ≠ 0 ∧ listing.method ≠ 8
  · rw [if_pos barred, if_pos barred]
    rfl
  · rw [if_neg barred, if_neg barred]
    cases numberAt? bytes listing.start 4 with
    | none => rfl
    | some mark =>
      show (if mark ≠ localMark then _ else _) = _
      by_cases same : mark = localMark
      · rw [if_neg (not_not.mpr same), same, if_neg (not_not.mpr rfl)]
        rfl
      · rw [if_pos same, if_pos fun alike => same (Option.some.inj alike)]
        rfl

/-- **An entry is opened unless one of these is the matter with it.** -/
theorem openMember?_eq_none_iff : openMember? bytes listing = none ↔ Unopenable bytes listing := by
  rw [openMember?_eq]
  constructor
  · intro unopened
    by_cases barred : listing.flags % 2 = 1 ∨ listing.method ≠ 0 ∧ listing.method ≠ 8
    · exact barred.elim .encrypted fun both => .packed both.1 both.2
    · rw [if_neg barred] at unopened
      by_cases unmarked : numberAt? bytes listing.start 4 ≠ some localMark
      · exact .headless unmarked
      · rw [if_neg unmarked] at unopened
        refine .cut ?_
        cases name : numberAt? bytes (listing.start + 26) 2 with
        | none => exact .inl rfl
        | some nameLength =>
          cases extra : numberAt? bytes (listing.start + 28) 2 with
          | none => exact .inr rfl
          | some extraLength =>
            rw [name, extra] at unopened
            cases unopened
  · intro unopenable
    cases unopenable with
    | encrypted flagged => rw [if_pos (.inl flagged)]
    | packed unstored undeflated => rw [if_pos (.inr ⟨unstored, undeflated⟩)]
    | headless unmarked => rw [if_pos unmarked, ite_self]
    | cut short =>
      have nothing : ((numberAt? bytes (listing.start + 26) 2).bind fun nameLength =>
          (numberAt? bytes (listing.start + 28) 2).bind fun extraLength =>
            some (unpacked listing (bytes.extract (listing.start + 30 + nameLength + extraLength)
              (listing.start + 30 + nameLength + extraLength + listing.packedSize)))) = none := by
        rcases short with name | extra
        · rw [name, Option.bind_none]
        · simp only [extra, Option.bind_none, Option.bind_fun_none]
      rw [nothing, ite_self, ite_self]

/-- **What the directory of an archive lists.** -/
def listings? (bytes : ByteArray) : Option (List Listing) :=
  (directory? bytes).bind fun directory =>
    readListings? bytes directory.shift directory.count directory.start

theorem members?_eq (bytes : ByteArray) :
    members? bytes = (listings? bytes).bind fun listings => listings.mapM (openMember? bytes) := by
  rw [listings?, Option.bind_assoc]
  rfl

/-- All items are turned into something, one by one. -/
theorem mapM_eq_some_iff {α β : Type} {turn : α → Option β} {items : List α} {results : List β} :
    items.mapM turn = some results ↔
      List.Forall₂ (fun item result => turn item = some result) items results := by
  induction items generalizing results with
  | nil =>
    rw [List.mapM_nil]
    exact ⟨fun same => Option.some.inj same ▸ .nil, fun paired => by cases paired; rfl⟩
  | cons item items ih =>
    rw [List.mapM_cons]
    constructor
    · intro given
      obtain ⟨result, turned, given⟩ := Option.bind_eq_some_iff.mp given
      obtain ⟨others, later, given⟩ := Option.bind_eq_some_iff.mp given
      cases given
      exact .cons turned (ih.mp later)
    · intro paired
      cases paired with
      | cons turned later =>
        rw [turned, ih.mpr later]
        rfl

/-- Not all items are turned into something if one is not. -/
theorem mapM_eq_none_iff {α β : Type} {turn : α → Option β} {items : List α} :
    items.mapM turn = none ↔ ∃ item ∈ items, turn item = none := by
  induction items with
  | nil => exact iff_of_false (fun none => nomatch none) fun ⟨_, nowhere, _⟩ => nomatch nowhere
  | cons item items ih =>
    rw [List.mapM_cons, List.exists_mem_cons_iff, ← ih]
    cases turn item with
    | none => exact iff_of_true rfl (.inl rfl)
    | some result =>
      rw [or_iff_right (fun none => nomatch none)]
      cases items.mapM turn with
      | none => exact iff_of_true rfl rfl
      | some results => exact iff_of_false (fun none => nomatch none) fun none => nomatch none

/-- **An archive is refused** if its directory cannot be read, or one of its entries cannot be
opened. -/
theorem members?_eq_none_iff : members? bytes = none ↔
    ∀ listings, listings? bytes = some listings →
      ∃ listing ∈ listings, Unopenable bytes listing := by
  rw [members?_eq]
  cases listings? bytes with
  | none => exact iff_of_true rfl fun _ none => nomatch none
  | some listings =>
    rw [Option.bind_some, mapM_eq_none_iff]
    simp only [openMember?_eq_none_iff, Option.some.injEq, forall_eq']

end Zip

namespace Job

open Zip (Listing Member)

/-! ## Part 2 — opened twice -/

/-- Entries opened again and written below a root, in the given order. -/
def placeReopened (reopen : Listing → Option Member) (root : Path) :
    List Listing → Job (List Path)
  | [] => pure []
  | listing :: rest => do
    checkpoint
    match reopen listing with
    | none => throw .archive
    | some member =>
      onDisk (Zip.placeMember root member)
      let later ← placeReopened reopen root rest
      pure (if member.isWritten then member.target root :: later else later)

/-- **Extraction in two passes.** Each entry is opened, to see whether it is the log; then each is
opened again and written, the log last. -/
def extractTwice (first reopen : Listing → Option Member) (listings : List Listing) (root : Path) :
    Job (List Path) :=
  match listings.mapM fun listing => (first listing).map fun member => (member.isLog, listing) with
  | none => throw .archive
  | some marked =>
    placeReopened reopen root
      (((marked.filter fun mark => !mark.1) ++ marked.filter fun mark => mark.1).map Prod.snd)

/-- Entries that open as they did before are written. -/
theorem placeReopened_eq {reopen : Listing → Option Member} {listings : List Listing}
    {members : List Member}
    (opens : List.Forall₂ (fun listing member => reopen listing = some member) listings members) :
    placeReopened reopen root listings = placeMembers root members := by
  induction opens with
  | nil => rfl
  | cons opened _ ih => rw [placeReopened, placeMembers, opened, ih]

/-- **Opening each entry twice** comes to the same as opening it once, if it opens the second time
as it did the first time. -/
theorem extractTwice_eq {bytes : ByteArray} {listings : List Listing}
    {reopen : Listing → Option Member} (listed : Zip.listings? bytes = some listings)
    (same : ∀ listing ∈ listings, reopen listing = Zip.openMember? bytes listing) :
    extractTwice (Zip.openMember? bytes) reopen listings root = extract bytes root := by
  rw [extract, Zip.members?_eq, listed, Option.bind_some]
  cases opened : listings.mapM (Zip.openMember? bytes) with
  | none =>
    obtain ⟨listing, among, unopened⟩ := Zip.mapM_eq_none_iff.mp opened
    have unmarked : (listings.mapM fun listing =>
        (Zip.openMember? bytes listing).map fun member => (member.isLog, listing)) = none :=
      Zip.mapM_eq_none_iff.mpr ⟨listing, among, by rw [unopened]; rfl⟩
    rw [extractTwice, unmarked]
  | some members =>
    -- A mark says whether its entry is the log, and holds what the entry is opened by again.
    obtain ⟨marked, marks, reopened⟩ : ∃ marked : List (Bool × Listing),
        (listings.mapM fun listing => (Zip.openMember? bytes listing).map fun member =>
          (member.isLog, listing)) = some marked ∧
        List.Forall₂ (fun mark member => mark.1 = member.isLog ∧ reopen mark.2 = some member)
          marked members := by
      clear listed
      induction Zip.mapM_eq_some_iff.mp opened with
      | nil => exact ⟨[], rfl, .nil⟩
      | @cons listing member listings members first later ih =>
        obtain ⟨own, others⟩ := List.forall_mem_cons.mp same
        obtain ⟨marked, marks, reopened⟩ := ih others (Zip.mapM_eq_some_iff.mpr later)
        refine ⟨(member.isLog, listing) :: marked, ?_, .cons ⟨rfl, own.trans first⟩ reopened⟩
        rw [List.mapM_cons, first, marks]
        rfl
    have ordered : List.Forall₂ (fun mark member => reopen (Prod.snd mark) = some member)
        ((marked.filter fun mark => !mark.1) ++ marked.filter fun mark => mark.1)
        (Zip.extractionOrder members) := by
      have kept : ∀ keep : Bool → Bool, List.Forall₂
          (fun mark member => mark.1 = member.isLog ∧ reopen mark.2 = some member)
          (marked.filter fun mark => keep mark.1)
          (members.filter fun member => keep member.isLog) := fun keep =>
        List.rel_filter (fun {mark member} paired => by dsimp only; rw [paired.1]) reopened
      exact (List.rel_append (kept not) (kept id)).imp fun _ _ paired => paired.2
    rw [extractTwice, marks]
    exact placeReopened_eq (List.forall₂_map_left_iff.mpr ordered)

/-! ## Part 3 — nothing is changed -/

/-- Once all entries were opened, the archive is at fault no more. -/
theorem placeMembers_opened (members : List Member) :
    ((placeMembers root members).perform hooks session).1 ≠ .error .archive := by
  induction members generalizing session with
  | nil => rintro ⟨⟩
  | cons member rest ih =>
    rw [placeMembers]
    rcases @checkpoint_cases hooks session with canceled | passed
    · rw [perform_bind_error canceled]
      rintro ⟨⟩
    · rw [perform_bind_ok passed, perform_bind, perform_onDisk]
      cases ((Zip.placeMember root member).run.run session.looked.world).1 with
      | error fault => rintro ⟨⟩
      | ok value =>
        show ((placeMembers root rest >>= _).perform hooks _).1 ≠ _
        rw [perform_bind]
        split
        · rintro ⟨⟩
        · next error after ran =>
          have later := @ih { session.looked with
            world := ((Zip.placeMember root member).run.run session.looked.world).2 }
          rw [ran] at later
          exact fun same => later (congrArg Except.error (Except.error.inj same))

/-- A token that has fired ends the writing before it begins. -/
theorem perform_placeMembers_fired {members : List Member} (some_members : members ≠ [])
    (fired : hooks.token.fired session.looked.trace = true) :
    (placeMembers root members).perform hooks session = (.error .canceled, session.looked) := by
  obtain ⟨member, rest, rfl⟩ := List.exists_cons_of_ne_nil some_members
  have canceled : checkpoint.perform hooks session = (.error .canceled, session.looked) := by
    rw [perform_checkpoint_eq, if_pos fired]
  rw [placeMembers, perform_bind_error canceled]

/-- **An archive that is refused** leaves the session as it was. -/
theorem perform_extract_refused {bytes : ByteArray} (refused : Zip.members? bytes = none) :
    (extract bytes root).perform hooks session = (.error .archive, session) := by
  rw [extract, refused, perform_throw]

/-- The archive is at fault exactly if it is refused. -/
theorem extract_archive_iff {bytes : ByteArray} :
    ((extract bytes root).perform hooks session).1 = .error .archive ↔
      Zip.members? bytes = none := by
  constructor
  · intro failed
    cases opened : Zip.members? bytes with
    | none => rfl
    | some members =>
      rw [extract, opened] at failed
      exact absurd failed (placeMembers_opened _)
  · intro refused
    rw [perform_extract_refused refused]

/-- The bytes of the archive are read first. -/
theorem perform_extractFile_read {bytes : ByteArray}
    (reads : session.world.read archive = .ok bytes) :
    (extractFile archive root).perform hooks session =
      (extract bytes root).perform hooks session := by
  rw [extractFile, perform_bind, perform_inspect, reads]
  rfl

/-- An archive that cannot be read is not at fault itself. -/
theorem perform_extractFile_unread {fault : IoFault}
    (unread : session.world.read archive = .error fault) :
    (extractFile archive root).perform hooks session = (.error (.io fault), session) := by
  rw [extractFile, perform_bind, perform_inspect, unread]
  rfl

/-- **An extraction writes an archive all of whose entries can be opened, or nothing.** `refused`:
it fails because of the archive exactly if the directory or one entry cannot be opened, wherever in
the archive; `untouched`: then nothing has changed; `canceled`: nothing has changed either if the
token had fired before the first entry; `twice`: it does not matter that entries are opened
twice. -/
structure AllOrNothing (hooks : Hooks) (session : Session) (archive root : Path)
    (ended : Except JobError (List Path) × Session) : Prop where
  refused : ended.1 = .error .archive ↔ ∃ bytes, session.world.read archive = .ok bytes ∧
    ∀ listings, Zip.listings? bytes = some listings →
      ∃ listing ∈ listings, Zip.Unopenable bytes listing
  untouched : ended.1 = .error .archive → ended.2.world = session.world
  canceled : ∀ bytes listings, session.world.read archive = .ok bytes →
    Zip.listings? bytes = some listings → listings ≠ [] →
      hooks.token.fired session.looked.trace = true →
        (ended.1 = .error .canceled ∨ ended.1 = .error .archive) ∧
          ended.2.world = session.world
  twice : ∀ bytes listings reopen, session.world.read archive = .ok bytes →
    Zip.listings? bytes = some listings →
      (∀ listing ∈ listings, reopen listing = Zip.openMember? bytes listing) →
        (extractTwice (Zip.openMember? bytes) reopen listings root).perform hooks session = ended

/-- **An extraction writes an archive all of whose entries can be opened, or nothing.** -/
theorem extractFile_all_or_nothing (hooks : Hooks) (session : Session) (archive root : Path) :
    AllOrNothing hooks session archive root
      ((extractFile archive root).perform hooks session) where
  refused := by
    constructor
    · intro failed
      cases reads : session.world.read archive with
      | error fault =>
        rw [perform_extractFile_unread reads] at failed
        cases failed
      | ok bytes =>
        rw [perform_extractFile_read reads, extract_archive_iff] at failed
        exact ⟨bytes, rfl, Zip.members?_eq_none_iff.mp failed⟩
    · rintro ⟨bytes, reads, unopenable⟩
      rw [perform_extractFile_read reads, extract_archive_iff]
      exact Zip.members?_eq_none_iff.mpr unopenable
  untouched failed := by
    cases reads : session.world.read archive with
    | error fault => rw [perform_extractFile_unread reads]
    | ok bytes =>
      rw [perform_extractFile_read reads] at failed ⊢
      rw [perform_extract_refused (extract_archive_iff.mp failed)]
  canceled bytes listings reads listed some_listings fired := by
    rw [perform_extractFile_read reads]
    cases opened : Zip.members? bytes with
    | none =>
      rw [perform_extract_refused opened]
      exact ⟨.inr rfl, rfl⟩
    | some members =>
      have some_members : Zip.extractionOrder members ≠ [] := by
        rw [Zip.members?_eq, listed, Option.bind_some, Zip.mapM_eq_some_iff] at opened
        cases opened with
        | nil => exact absurd rfl some_listings
        | cons => exact List.ne_nil_of_mem (Zip.mem_extractionOrder.mpr List.mem_cons_self)
      rw [extract, opened, perform_placeMembers_fired some_members fired]
      exact ⟨.inl rfl, rfl⟩
  twice bytes listings reopen reads listed same := by
    rw [perform_extractFile_read reads, extractTwice_eq listed same]

/-- An archive of two entries that can be opened. -/
def soundArchive : ByteArray := Zip.write [("a", ⟨#[1]⟩), ("b", ⟨#[2]⟩)]

/-- The same archive, whose directory says that the second entry is encrypted. -/
def sealedArchive : ByteArray := ⟨soundArchive.data.set! 119 1⟩

/-- A world with both archives, and a directory to unpack them into. -/
def sealedWorld : World :=
  World.ofNodes [] [([⟨"r", by decide⟩], .directory),
    ([⟨"sound.zip", by decide⟩], .file soundArchive),
    ([⟨"sealed.zip", by decide⟩], .file sealedArchive)] (by decide) (by decide)

/-- **One sealed entry behind another one** keeps the archive from being unpacked; a token that has
fired keeps the sound archive from it. -/
theorem extractFile_all_or_nothing_sealed :
    let hooks : Hooks := ⟨.always, fun _ => none, fun _ _ world => .ok (.timedOut, world),
      fun _ _ => .answered 200 [] false⟩
    let ended := (extractFile ⟨"/sealed.zip"⟩ ⟨"/r"⟩).perform { hooks with token := .never }
      (.fresh sealedWorld)
    let stopped := (extractFile ⟨"/sound.zip"⟩ ⟨"/r"⟩).perform hooks (.fresh sealedWorld)
    ended.1 = .error .archive ∧ ended.2.world = sealedWorld ∧ stopped.2.world = sealedWorld := by
  intro hooks ended stopped
  have whole : AllOrNothing { hooks with token := .never } _ _ _ ended :=
    extractFile_all_or_nothing _ _ _ _
  have early : AllOrNothing hooks _ _ _ stopped := extractFile_all_or_nothing hooks _ _ _
  have flagged : (Zip.listings? sealedArchive).all (fun listings =>
      listings.any fun listing => listing.flags % 2 == 1) = true := by decide +kernel
  have listed : (Zip.listings? soundArchive).isSome = true ∧
      (Zip.listings? soundArchive).all (fun listings => !listings.isEmpty) = true := by
    decide +kernel
  have refused : ended.1 = .error .archive := by
    refine whole.refused.mpr ⟨sealedArchive, rfl, fun listings listed => ?_⟩
    rw [listed, Option.all_some, List.any_eq_true] at flagged
    obtain ⟨listing, among, flagged⟩ := flagged
    exact ⟨listing, among, .encrypted (beq_iff_eq.mp flagged)⟩
  obtain ⟨listings, opened⟩ := Option.isSome_iff_exists.mp listed.1
  have some_listings : listings ≠ [] := by
    have filled := listed.2
    rw [opened] at filled
    rintro rfl
    cases filled
  exact ⟨refused, whole.untouched refused,
    (early.canceled soundArchive listings rfl opened some_listings rfl).2⟩

end Job

end ShaderForge

/-
**What a generator has published.**

A collection is findings by file, inserted one after the other. An insertion loses none of them and
adds none (`insertFinding_perm`), and so no row of insertions does (`all_replace`). A collection
therefore counts what was published: all of it (`size_replace`), and the errors among it
(`errors_replace`).

A job drops what was published before it looks at anything else. So a generator after any number of
jobs does what a fresh one does in the same world, and what it has published afterwards agrees with
what the last job came to (`findings_after_calls`).
-/

import ShaderForge.Proofs.JobEnds

namespace ShaderForge

/-! ## Part 1 — groups -/

section Groups

variable {groups : List (Path × List Diagnostic)} {diagnostic : Diagnostic}

/-- **An inserted finding** is there with all that was there before. -/
theorem insertFinding_perm : ((insertFinding groups diagnostic).flatMap Prod.snd).Perm
    (groups.flatMap Prod.snd ++ [diagnostic]) := by
  induction groups with
  | nil => exact .refl [diagnostic]
  | cons group later ih =>
    obtain ⟨first, findings⟩ := group
    rw [insertFinding]
    split
    · rw [List.flatMap_cons, List.flatMap_cons, List.append_assoc, List.append_assoc]
      exact List.perm_append_comm.append_left findings
    · split
      · rw [List.flatMap_cons]
        exact List.perm_append_comm
      · rw [List.flatMap_cons, List.flatMap_cons, List.append_assoc]
        exact ih.append_left findings

/-- **Findings inserted one after the other** are there with all that was there before. -/
theorem foldl_insertFinding_perm (diagnostics : List Diagnostic) :
    ((diagnostics.foldl insertFinding groups).flatMap Prod.snd).Perm
      (groups.flatMap Prod.snd ++ diagnostics) := by
  induction diagnostics generalizing groups with
  | nil => rw [List.append_nil, List.foldl_nil]
  | cons diagnostic later ih =>
    rw [List.append_cons]
    exact ih.trans (insertFinding_perm.append_right later)

end Groups

theorem total_eq_sum (numbers : List Nat) : total numbers = numbers.sum := by
  induction numbers with
  | nil => rfl
  | cons number rest ih => rw [total, ih, List.sum_cons]

namespace DiagnosticCollection

/-! ## Part 2 — collections -/

variable {collection : DiagnosticCollection} {diagnostics : List Diagnostic}

/-- **A collection holds what was published**, in some order. -/
theorem all_replace : (collection.replace diagnostics).all.Perm diagnostics :=
  foldl_insertFinding_perm diagnostics

theorem size_eq : collection.size = collection.all.length := by
  rw [size, all, total_eq_sum, List.length_flatMap]

theorem errors_eq : collection.errors = errorCount collection.all := by
  rw [errors, all, total_eq_sum, errorCount, List.countP_flatMap]
  rfl

theorem size_replace : (collection.replace diagnostics).size = diagnostics.length := by
  rw [size_eq]
  exact all_replace.length_eq

theorem errors_replace : (collection.replace diagnostics).errors = errorCount diagnostics := by
  rw [errors_eq]
  exact all_replace.countP_eq _

end DiagnosticCollection

/-! ## Part 3 — one job -/

/-- What a job comes to after which nothing is published. -/
def JobError.publishesNothing : JobError → Bool
  | canceled | transfer _ _ | archive => true
  | error => error.isRefusal

/-- **A collection agrees with what a job came to.** -/
structure Agrees (outcome : Except JobError JobReport) (collection : DiagnosticCollection) :
    Prop where
  report : ∀ report, outcome = .ok report →
    (∀ finding ∈ collection.all, finding.isError = false) ∧ report.warnings = collection.size
  errors : ∀ count, outcome = .error (.compilerErrors count) →
    1 ≤ count ∧ collection.errors = count
  nothing : ∀ error, outcome = .error error → error.publishesNothing = true →
    collection = .empty

/-- No findings come with what publishes nothing. -/
theorem Verdict.publishes {records : List Diagnostic} {error : JobError}
    (verdict : Verdict records (.error error)) : error.publishesNothing = false := by
  cases error with
  | canceled => cases verdict
  | transfer url fault => cases verdict
  | archive => cases verdict
  | invalidInput path => cases verdict
  | invalidConfig path fault => cases verdict
  | invalidBinary text fault => cases verdict
  | invalidEndpoint url fault => cases verdict
  | _ => rfl

/-- **What a job has published agrees with what it came to.** -/
theorem Ended.agrees {token : Token} {here : Bool} {world : World} {after : Session}
    {outcome : Except JobError JobReport} (ended : Ended token here world outcome after) :
    Agrees outcome after.findings := by
  have silent : ∀ error : JobError, error.isEarly = true ∨ error.isLate = true ∨ error = .canceled →
      after.findings = .empty → Agrees (.error error) after.findings := by
    intro error kind findings
    refine ⟨fun _ same => (nomatch same), ?_, fun _ _ _ => findings⟩
    rintro count ⟨⟩
    rcases kind with early | late | canceled
    · cases early
    · cases late
    · cases canceled
  cases ended with
  | early kind idle => exact silent _ (kind.imp_right .inr) idle.findings
  | late kind findings untouched => exact silent _ (.inr kind) findings
  | published records findings verdict =>
    rw [findings]
    refine ⟨?_, ?_, ?_⟩
    · rintro report rfl
      obtain ⟨clean, counts⟩ := verdict
      refine ⟨fun finding among => ?_, counts.trans DiagnosticCollection.size_replace.symm⟩
      have recorded := DiagnosticCollection.all_replace.mem_iff.mp among
      exact Bool.eq_false_iff.mpr (List.countP_eq_zero.mp clean finding recorded)
    · rintro count rfl
      exact ⟨verdict.2, DiagnosticCollection.errors_replace.trans verdict.1.symm⟩
    · rintro error rfl quiet
      rw [verdict.publishes] at quiet
      cases quiet

/-! ## Part 4 — jobs in a row -/

/-- **A job asked of a generator**: what happens to the files before it, the request, and what it
works with. -/
structure GenerateCall where
  meanwhile : World → World
  request : JobRequest
  hooks : Hooks

namespace Generator

/-- What a job comes to, and the session that it leaves. -/
def answer (generator : Generator) (world : World) (call : GenerateCall) :
    Except JobError JobReport × Session :=
  generator.generate call.request call.hooks (call.meanwhile world)

/-- **A generator and the files after some jobs.** -/
def afterCalls (generator : Generator) (world : World) : List GenerateCall → Generator × World
  | [] => (generator, world)
  | call :: later =>
    let left := (generator.answer world call).2
    (generator.afterJob left).afterCalls left.world later

/-- A generator as it was before its first job. -/
def renewed (generator : Generator) : Generator :=
  fresh generator.settings generator.resolver generator.timeout

theorem afterCalls_concat (generator : Generator) (world : World) (earlier : List GenerateCall)
    (last : GenerateCall) :
    let before := generator.afterCalls world earlier
    let ended := before.1.answer before.2 last
    generator.afterCalls world (earlier ++ [last]) =
      (before.1.afterJob ended.2, ended.2.world) := by
  induction earlier generalizing generator world with
  | nil => rfl
  | cons call earlier ih => exact ih _ _

theorem renewed_afterCalls (generator : Generator) (world : World) (calls : List GenerateCall) :
    (generator.afterCalls world calls).1.renewed = generator.renewed := by
  induction calls generalizing generator world with
  | nil => rfl
  | cons call later ih => exact ih _ _

/-- **A job does not depend on what was published before.** -/
theorem answer_renewed (generator : Generator) (world : World) (call : GenerateCall) :
    generator.renewed.answer world call = generator.answer world call := by
  have dropped : ∀ findings : DiagnosticCollection,
      (Job.generate generator.settings generator.resolver generator.timeout call.request).perform
        call.hooks ⟨call.meanwhile world, [], findings⟩ = _ := fun _ =>
    Job.perform_bind_ok Job.perform_clearFindings
  exact (dropped .empty).trans (dropped generator.findings).symm

end Generator

/-- **What a generator has published after any jobs**: after the last one it holds what a fresh
generator would hold after that job alone, in the same world; and that agrees with what the job came
to. -/
theorem findings_after_calls (generator : Generator) (world : World) (earlier : List GenerateCall)
    (last : GenerateCall) :
    let before := generator.afterCalls world earlier
    let ended := before.1.answer before.2 last
    let alone := (Generator.fresh generator.settings generator.resolver generator.timeout).answer
      before.2 last
    let collection := (generator.afterCalls world (earlier ++ [last])).1.findings
    ended = alone ∧ collection = alone.2.findings ∧ Agrees ended.1 collection := by
  intro before ended alone collection
  have same : ended = alone := by
    have kept : before.1.renewed = generator.renewed := generator.renewed_afterCalls world earlier
    exact (before.1.answer_renewed before.2 last).symm.trans
      (congrArg (Generator.answer · before.2 last) kept)
  have holds : collection = ended.2.findings :=
    congrArg (fun left => left.1.findings) (generator.afterCalls_concat world earlier last)
  refine ⟨same, by rw [holds, same], ?_⟩
  rw [holds]
  exact (before.1.ended last.request last.hooks (last.meanwhile before.2)).agrees

/-- A job that finds an error, and then one that is refused. -/
theorem findings_after_calls_refused :
    let generator := Generator.fresh ⟨"/bin/slc", ""⟩ ⟨⟨"/"⟩, ⟨[], none⟩⟩ standardTimeout
    let hooks : Hooks := ⟨.never, fun _ => none,
      fun _ _ world => .ok (.exited ByteArray.empty "[ERROR] x.vert:1: no".toUTF8 1, world),
      fun _ _ => .answered 200 [] false⟩
    let failing : GenerateCall := ⟨id, ⟨"/job/x.sl.json", none⟩, hooks⟩
    let refused : GenerateCall := ⟨id, ⟨"/nowhere", none⟩, hooks⟩
    (generator.afterCalls smallWorld [failing]).1.findings.errors = 1 ∧
      (generator.afterCalls smallWorld [failing, refused]).1.findings = .empty := by
  intro generator hooks failing refused
  obtain ⟨-, -, first⟩ := findings_after_calls generator smallWorld [] failing
  obtain ⟨-, -, second⟩ := findings_after_calls generator smallWorld [failing] refused
  have one : (match (generator.answer smallWorld failing).1 with
      | .error (.compilerErrors count) => count
      | _ => 0) = 1 := by decide +kernel
  have quiet : (match ((generator.afterCalls smallWorld [failing]).1.answer
        (generator.afterCalls smallWorld [failing]).2 refused).1 with
      | .error error => error.publishesNothing
      | .ok _ => false) = true := by decide +kernel
  refine ⟨?_, ?_⟩
  · split at one
    · next count failed => exact (first.errors count failed).2.trans one
    · cases one
  · split at quiet
    · next error failed => exact second.nothing error failed quiet
    · cases quiet

end ShaderForge

/-
**Which of the two wins a race.**

A step is raced against the token: each poll of it begins with a look at the token. The token has
fired when a poll begins if it was cancelled from outside by then, or by the step in a poll before
(`Step.FiredAt`). Whether the step is interrupted is settled by the polls that it reaches, which are
those before which it has not finished (`Step.Reaches`, `Step.Interrupted`).

`Step.raced` says how every race ends, whatever the step and the cancellations from outside do. A
step that is interrupted is told so once, and ends as canceled at the first poll that begins with a
fired token; what it would do from then on changes nothing. Any other step ends with its own result
and is told nothing, even if it cancels the token while it finishes, or it never ends.

* `race_passes`: polls that neither finish the step nor begin with a fired token are passed, by
  induction on their number.
-/

import ShaderForge.Job.Race

namespace ShaderForge

namespace Step

variable {α : Type} {step other : Step α} {outside : Nat → Bool} {index count bound : Nat}

/-! ## Part 1 — polls and the token -/

/-- Poll `index` is reached unless the token stops the step: no poll before it finishes it. -/
def Reaches (step : Step α) (index : Nat) : Prop :=
  ∀ earlier < index, (step earlier).result = none

/-- **The token has fired when poll `index` begins**: it was cancelled from outside by then, or by
the step in an earlier poll. -/
def FiredAt (step : Step α) (outside : Nat → Bool) (index : Nat) : Prop :=
  (∃ moment ≤ index, outside moment = true) ∨ ∃ earlier < index, (step earlier).cancels = true

/-- **The step is interrupted**: the token has fired when a poll begins that the step reaches. -/
def Interrupted (step : Step α) (outside : Nat → Bool) : Prop :=
  ∃ index, step.Reaches index ∧ step.FiredAt outside index

/-- Whether the poll before poll `index` cancels the token. -/
def cancelsBefore (step : Step α) : Nat → Bool
  | 0 => false
  | earlier + 1 => (step earlier).cancels

/-- Whether the token fires between the beginnings of the poll before and of poll `index`. -/
def firesBefore (step : Step α) (outside : Nat → Bool) (index : Nat) : Bool :=
  step.cancelsBefore index || outside index

theorem firedAt_iff :
    step.FiredAt outside index ↔ ∃ moment ≤ index, step.firesBefore outside moment = true := by
  simp only [FiredAt, firesBefore, Bool.or_eq_true]
  constructor
  · rintro (⟨moment, by_then, fires⟩ | ⟨earlier, before, cancels⟩)
    · exact ⟨moment, by_then, .inr fires⟩
    · exact ⟨earlier + 1, before, .inl cancels⟩
  · rintro ⟨moment, by_then, cancels | fires⟩
    · cases moment with
      | zero => cases cancels
      | succ earlier => exact .inr ⟨earlier, by_then, cancels⟩
    · exact .inl ⟨moment, by_then, fires⟩

/-- A token that has not fired did not fire before any poll so far. -/
theorem firesBefore_of_not_firedAt {moment : Nat} (quiet : ¬ step.FiredAt outside index)
    (by_then : moment ≤ index) : step.firesBefore outside moment = false := by
  rw [← Bool.not_eq_true]
  exact fun fires => quiet (firedAt_iff.mpr ⟨moment, by_then, fires⟩)

/-- Steps that do the same before a poll see the same at its beginning. -/
theorem firesBefore_congr {moment : Nat} (same : ∀ earlier < index, other earlier = step earlier)
    (by_then : moment ≤ index) :
    other.firesBefore outside moment = step.firesBefore outside moment := by
  cases moment with
  | zero => rfl
  | succ earlier =>
    rw [firesBefore, firesBefore, cancelsBefore, cancelsBefore, same earlier by_then]

/-! ## Part 2 — polls that are passed -/

/-- **Polls that neither finish the step nor begin with a fired token are passed.** -/
theorem race_passes (reached : step.Reaches count)
    (quiet : ∀ moment < count, step.firesBefore outside moment = false) :
    race step outside (count + bound) =
      raceFrom step outside bound count (step.cancelsBefore count) := by
  induction count generalizing bound with
  | zero => rw [Nat.zero_add]; rfl
  | succ count ih =>
    have still : (step.cancelsBefore count || outside count) = false :=
      quiet count (Nat.lt_succ_self _)
    rw [Nat.add_right_comm, Nat.add_assoc,
      ih (fun earlier before => reached earlier (Nat.lt_succ_of_lt before))
        fun moment before => quiet moment (Nat.lt_succ_of_lt before),
      raceFrom, still, if_neg Bool.false_ne_true]
    dsimp only
    rw [reached count (Nat.lt_succ_self _)]
    rfl

/-- Polls that are passed do not end the race. -/
theorem race_open (reached : step.Reaches count)
    (quiet : ∀ moment < count, step.firesBefore outside moment = false) (within : bound ≤ count) :
    race step outside bound = none := by
  rw [← Nat.add_zero bound, race_passes
    (fun earlier before => reached earlier (Nat.lt_of_lt_of_le before within))
    fun moment before => quiet moment (Nat.lt_of_lt_of_le before within)]
  rfl

/-! ## Part 3 — ends -/

/-- **A race ends so**: with this end, as soon as there are enough looks at the token. -/
def EndsWith (step : Step α) (outside : Nat → Bool) (finish : RaceEnd α) : Prop :=
  ∃ looks, ∀ bound, race step outside bound = if looks < bound then some finish else none

/-- What ends the race at the look after some passed polls, ends it. -/
theorem endsWith_of_passed {finish : RaceEnd α} (reached : step.Reaches index)
    (quiet : ∀ moment < index, step.firesBefore outside moment = false)
    (ends : ∀ more, raceFrom step outside (more + 1) index (step.cancelsBefore index) =
      some finish) : step.EndsWith outside finish := by
  refine ⟨index, fun bound => ?_⟩
  by_cases enough : index < bound
  · obtain ⟨more, rfl⟩ := Nat.exists_eq_add_of_lt enough
    rw [if_pos enough, Nat.add_assoc, race_passes reached quiet, ends]
  · rw [if_neg enough, race_open reached quiet (Nat.le_of_not_lt enough)]

/-- **A fired token ends the race** at the first poll that begins with it. -/
theorem endsWith_canceled (reached : step.Reaches index)
    (quiet : ∀ moment < index, step.firesBefore outside moment = false)
    (fires : step.firesBefore outside index = true) :
    step.EndsWith outside ⟨.error .canceled, 1, index, true⟩ := by
  refine endsWith_of_passed reached quiet fun more => ?_
  have fired : (step.cancelsBefore index || outside index) = true := fires
  rw [raceFrom, fired, if_pos rfl]

/-- **A step that finishes in time ends the race** with its result. -/
theorem endsWith_result {result : Except JobError α} (reached : step.Reaches index)
    (quiet : ¬ step.FiredAt outside index) (finishes : (step index).result = some result) :
    step.EndsWith outside ⟨result, 0, index + 1, (step index).cancels⟩ := by
  refine endsWith_of_passed reached
    (fun moment before => firesBefore_of_not_firedAt quiet (Nat.le_of_lt before)) fun more => ?_
  have unfired : (step.cancelsBefore index || outside index) = false :=
    firesBefore_of_not_firedAt quiet (Nat.le_refl index)
  rw [raceFrom, unfired, if_neg Bool.false_ne_true]
  dsimp only
  rw [finishes]

/-- The first poll that begins with a fired token. -/
theorem exists_first (fired : step.FiredAt outside index) :
    ∃ first ≤ index, step.firesBefore outside first = true ∧
      ∀ moment < first, step.firesBefore outside moment = false := by
  induction index using Nat.strongRecOn with
  | ind index ih =>
    by_cases earlier : ∃ before < index, step.FiredAt outside before
    · obtain ⟨before, less, already⟩ := earlier
      obtain ⟨first, within, found⟩ := ih before less already
      exact ⟨first, Nat.le_trans within (Nat.le_of_lt less), found⟩
    · have quiet : ∀ moment < index, step.firesBefore outside moment = false := fun moment less =>
        firesBefore_of_not_firedAt (fun already => earlier ⟨moment, less, already⟩)
          (Nat.le_refl moment)
      obtain ⟨moment, by_then, fires⟩ := firedAt_iff.mp fired
      rcases Nat.lt_or_eq_of_le by_then with less | same
      · rw [quiet moment less] at fires
        cases fires
      · exact ⟨index, Nat.le_refl index, same ▸ fires, quiet⟩

/-- **How a race ends.** `others` are the steps that do the same up to the end of the race: whatever
the step would do later, it is not asked to. -/
structure Raced (step : Step α) (outside : Nat → Bool) : Prop where
  interrupted : step.Interrupted outside → ∃ index, step.Reaches index ∧
    step.FiredAt outside index ∧ (∀ earlier < index, ¬ step.FiredAt outside earlier) ∧
      ∀ other : Step α, (∀ earlier < index, other earlier = step earlier) →
        other.EndsWith outside ⟨.error .canceled, 1, index, true⟩
  finished : ¬ step.Interrupted outside → ∀ index result, step.Reaches index →
    (step index).result = some result →
      ∀ other : Step α, (∀ earlier ≤ index, other earlier = step earlier) →
        other.EndsWith outside ⟨result, 0, index + 1, (step index).cancels⟩
  endless : ¬ step.Interrupted outside → (∀ index, (step index).result = none) →
    ∀ bound, race step outside bound = none

/-- **Every race ends in one of these ways.** -/
theorem raced (step : Step α) (outside : Nat → Bool) : step.Raced outside where
  interrupted := by
    rintro ⟨index, reached, fired⟩
    obtain ⟨first, within, fires, quiet⟩ := exists_first fired
    have reaches : step.Reaches first := fun earlier before =>
      reached earlier (Nat.lt_of_lt_of_le before within)
    refine ⟨first, reaches, firedAt_iff.mpr ⟨first, Nat.le_refl first, fires⟩,
      fun earlier before already => ?_, fun other same => ?_⟩
    · obtain ⟨moment, by_then, early⟩ := firedAt_iff.mp already
      rw [quiet moment (Nat.lt_of_le_of_lt by_then before)] at early
      cases early
    · refine endsWith_canceled (fun earlier before => ?_) (fun moment before => ?_) ?_
      · rw [same earlier before]
        exact reaches earlier before
      · rw [firesBefore_congr same (Nat.le_of_lt before)]
        exact quiet moment before
      · rw [firesBefore_congr same (Nat.le_refl first)]
        exact fires
  finished undisturbed index result reached finishes other same := by
    have before : ∀ earlier < index, other earlier = step earlier := fun earlier less =>
      same earlier (Nat.le_of_lt less)
    have quiet : ¬ other.FiredAt outside index := by
      rw [firedAt_iff]
      rintro ⟨moment, by_then, fires⟩
      rw [firesBefore_congr before by_then] at fires
      exact undisturbed ⟨index, reached, firedAt_iff.mpr ⟨moment, by_then, fires⟩⟩
    have ends := endsWith_result (fun earlier less => by
      rw [before earlier less]
      exact reached earlier less) quiet (same index (Nat.le_refl index) ▸ finishes)
    rwa [same index (Nat.le_refl index)] at ends
  endless undisturbed waits bound := by
    have reached : step.Reaches bound := fun earlier _ => waits earlier
    exact race_open reached (fun moment before => firesBefore_of_not_firedAt
      (fun fired => undisturbed ⟨bound, reached, fired⟩) (Nat.le_of_lt before)) (Nat.le_refl bound)

end Step

/-- A step that cancels the token and waits is interrupted at its next poll. -/
example : (race (Step.ofPolls [⟨true, none⟩, ⟨false, some (.ok 8)⟩]) (fun _ => false) 5).map
    (fun finish => (finish.aborts, finish.polls)) = some (1, 1) := by decide

end ShaderForge

/-
**Sums.**

* `total`: the sum of some numbers, with `total_append`.
-/

namespace ShaderForge

/-- **The sum of some numbers.** -/
def total : List Nat → Nat
  | [] => 0
  | number :: rest => number + total rest

/-- The sum of two lists is the sum of their sums. -/
theorem total_append (left right : List Nat) :
    total (left ++ right) = total left + total right := by
  induction left with
  | nil => exact (Nat.zero_add _).symm
  | cons number rest added =>
    show number + total (rest ++ right) = number + total rest + total right
    rw [added, Nat.add_assoc]

end ShaderForge

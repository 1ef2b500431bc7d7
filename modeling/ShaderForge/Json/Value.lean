/-
**JSON values.**

Numbers are integers that fit 64 bits, or finite binary floating point numbers. The fields of an
object are kept in the order of their names, each name once.

* `put`: a field set in such a list; `lookup_put` says what is then found;
* `field?`: the value of a field.
-/

import ShaderForge.Decimal.Double

namespace ShaderForge

/-- A number of a document. -/
inductive JsonNumber
  | integer (value : Int)
  | real (value : Decimal.Double)
deriving DecidableEq

/-- **A JSON value.** -/
inductive Json
  | null
  | bool (value : Bool)
  | number (value : JsonNumber)
  | text (value : String)
  | list (items : List Json)
  | object (fields : List (String × Json))

namespace Json

/-- A field set in a list of fields that is ordered by name; an earlier value of it is replaced. -/
def put (name : String) (value : Json) : List (String × Json) → List (String × Json)
  | [] => [(name, value)]
  | field :: fields =>
    if name < field.1 then (name, value) :: field :: fields
    else if name = field.1 then (name, value) :: fields
    else field :: put name value fields

/-- What is found after a field was set. -/
theorem lookup_put (name key : String) (value : Json) (fields : List (String × Json)) :
    (put name value fields).lookup key = if key = name then some value else fields.lookup key := by
  induction fields with
  | nil =>
    rw [put, List.lookup_cons, List.lookup_nil]
    by_cases same : key = name
    · simp [same]
    · simp [same, beq_eq_false_iff_ne.mpr same]
  | cons field fields later =>
    rw [put]
    split
    · by_cases same : key = name
      · simp [same]
      · simp [List.lookup_cons, same, beq_eq_false_iff_ne.mpr same]
    · split
      · next here =>
        rw [List.lookup_cons, List.lookup_cons, ← here]
        by_cases same : key = name
        · simp [same]
        · simp [same, beq_eq_false_iff_ne.mpr same]
      · next other =>
        rw [List.lookup_cons, List.lookup_cons, later]
        by_cases same : key = name
        · rw [same, beq_eq_false_iff_ne.mpr other, if_pos rfl]
        · simp [same]

/-- The value of a field of an object. -/
def field? (name : String) : Json → Option Json
  | .object fields => fields.lookup name
  | _ => none

end Json

end ShaderForge

/-
**What is read back of a written document.**

A value *echoes* as another one if, whatever it is written into, it is read back as the other one
with the rest of the text left over (`Echoes`). Text and integers echo as themselves; lists and
objects do if what they hold does, and the fields of an object come back in the order of their names
(`echoes_object`).

A value is *readable* at a depth if its fields are in order, its integers fit 64 bits, and it nests
no deeper than that (`Readable`). Such a value echoes as itself, if the floating point numbers in it
are read back (`Readable.echoes`).

* `ordered_gather`, `mem_gather`, `eq_of_mem_iff`: fields in the order of their names;
* `Readable.echoes`: what can be read is read back;
* `read_render`: a whole document.
-/

import Mathlib.Data.List.Forall2
import Mathlib.Data.List.Induction
import ShaderForge.Proofs.JsonTokens

namespace ShaderForge.Json

open Decimal (Double)

/-! ## Part 1 — values -/

-- Formed here, the equations are there for all proofs below; each would wait for them otherwise.
attribute [local simp] written writtenItems writtenFields

/-- A number begins like a numeral. -/
theorem writtenNumber_begins (number : JsonNumber) :
    ∃ c tail, writtenNumber number = c :: tail ∧ (c.isDigit = true ∨ c = '-') := by
  cases number with
  | real number =>
    obtain ⟨begins, some_text, -⟩ := render_begins number
    obtain ⟨c, tail, shape⟩ := List.exists_cons_of_ne_nil some_text
    exact ⟨c, tail, shape, begins c (by rw [shape]; rfl)⟩
  | integer value =>
    show ∃ c tail, (if value < 0 then '-' :: Nat.toDigits 10 value.natAbs
      else Nat.toDigits 10 value.natAbs) = c :: tail ∧ _
    split
    · exact ⟨'-', _, rfl, .inr rfl⟩
    · obtain ⟨c, tail, shape⟩ := List.exists_cons_of_ne_nil
        (Nat.toDigits_ne_nil (n := value.natAbs) (b := 10))
      have inside : c ∈ Nat.toDigits 10 value.natAbs := by
        rw [shape]
        exact List.mem_cons_self
      exact ⟨c, tail, shape, .inl (Nat.isDigit_of_mem_toDigits (by decide) (by decide) inside)⟩

/-- A value begins with a character that neither is blank nor closes a list. -/
theorem written_begins (level : Nat) (value : Json) :
    ∃ c tail, written level value = c :: tail ∧ isSpace c = false ∧ c ≠ ']' := by
  cases value with
  | null => exact ⟨'n', _, by rw [written], by decide, by decide⟩
  | bool value =>
    cases value with
    | true => exact ⟨'t', _, by rw [written], by decide, by decide⟩
    | false => exact ⟨'f', _, by rw [written], by decide, by decide⟩
  | number number =>
    obtain ⟨c, tail, shape, first⟩ := writtenNumber_begins number
    refine ⟨c, tail, by rw [written, shape], ?_, ?_⟩
    · apply isSpace_of_isNumeric
      rcases first with digit | rfl
      · exact isNumeric_of_isDigit digit
      · decide
    · rintro rfl
      exact absurd first (by decide)
  | text content => exact ⟨'"', _, by rw [written, quoted], by decide, by decide⟩
  | list items =>
    cases items with
    | nil => exact ⟨'[', _, by rw [written], by decide, by decide⟩
    | cons item items =>
      refine ⟨'[', (written level (.list (item :: items))).tail, ?_, by decide, by decide⟩
      rw [written]
      rfl
  | object fields =>
    cases fields with
    | nil => exact ⟨'{', _, by rw [written], by decide, by decide⟩
    | cons field fields =>
      refine ⟨'{', (written level (.object (field :: fields))).tail, ?_, by decide, by decide⟩
      rw [written]
      rfl

theorem skipBlanks_written (level : Nat) (value : Json) (rest : List Char) :
    skipBlanks (written level value ++ rest) = written level value ++ rest := by
  obtain ⟨c, tail, shape, solid, -⟩ := written_begins level value
  rw [shape]
  refine skipBlanks_of_head fun d first => ?_
  cases first
  exact solid

/-- **What a value is read back as**, whatever it is written into. -/
def Echoes (depth : Nat) (value echo : Json) : Prop :=
  ∀ level rest, Ends rest → readValue depth (written level value ++ rest) = some (echo, rest)

theorem ends_newline (level : Nat) (rest : List Char) : Ends (newline level ++ rest) := by
  intro c first
  cases first
  decide

theorem ends_cons {c : Char} (closes : c.isDigit = false ∧ c ≠ '.' ∧ c ≠ 'e' ∧ c ≠ 'E')
    (rest : List Char) : Ends (c :: rest) := by
  intro d first
  cases first
  exact closes

theorem echoes_null (depth : Nat) : Echoes (depth + 1) .null .null := by
  intro level rest ends
  rw [written]
  rfl

theorem echoes_bool (depth : Nat) (value : Bool) :
    Echoes (depth + 1) (.bool value) (.bool value) := by
  intro level rest ends
  cases value with
  | true =>
    rw [written]
    rfl
  | false =>
    rw [written]
    rfl

theorem echoes_text (depth : Nat) (content : String) :
    Echoes (depth + 1) (.text content) (.text content) := by
  intro level rest ends
  rw [written, quoted, List.cons_append, List.append_assoc, List.singleton_append, readValue,
    readText_quoted]
  simp only [Option.map, String.ofList_toList]

theorem echoes_integer {value : Int} (depth : Nat) (fits : FitsWord value) :
    Echoes (depth + 1) (.number (.integer value)) (.number (.integer value)) := by
  intro level rest ends
  rw [written]
  exact readValue_integer depth fits ends

theorem echoes_real {number : Double} (depth : Nat) (back : ReadsBack number) :
    Echoes (depth + 1) (.number (.real number)) (.number (.real number)) := by
  intro level rest ends
  rw [written]
  exact readValue_real depth back ends

theorem length_writtenItems (level : Nat) (items : List Json) :
    items.length ≤ (writtenItems level items).length := by
  induction items with
  | nil => exact Nat.zero_le _
  | cons item items ih =>
    rw [writtenItems, List.length_append, List.length_append, List.length_cons, List.length_cons]
    omega

theorem readItems_last {item : List Char → Option (Json × List Char)} {value : Json}
    {cs rest after : List Char} (bound : Nat) (reads : item (skipBlanks cs) = some (value, rest))
    (closes : skipBlanks rest = ']' :: after) :
    readItems item (bound + 1) cs = some ([value], after) := by
  simp only [readItems, reads, closes]

theorem readItems_next {item : List Char → Option (Json × List Char)} {value : Json}
    {values : List Json} {cs rest more after : List Char} {bound : Nat}
    (reads : item (skipBlanks cs) = some (value, rest)) (goesOn : skipBlanks rest = ',' :: more)
    (later : readItems item bound more = some (values, after)) :
    readItems item (bound + 1) cs = some (value :: values, after) := by
  simp only [readItems, reads, goesOn, later, Option.map]

/-- Further items are read back up to the closing bracket. -/
theorem readItems_echoes {depth level outer bound : Nat} {items echoes : List Json}
    (all : List.Forall₂ (Echoes depth) items echoes) {item echo : Json}
    (first : Echoes depth item echo) (enough : items.length < bound) (rest : List Char) :
    readItems (readValue depth) bound (newline level ++ (written level item ++
      (writtenItems level items ++ (newline outer ++ ']' :: rest)))) =
        some (echo :: echoes, rest) := by
  obtain ⟨bound, rfl⟩ := Nat.exists_eq_succ_of_ne_zero (Nat.ne_zero_of_lt enough)
  induction all generalizing item echo bound with
  | nil =>
    refine readItems_last bound ?_ (skipBlanks_bracket outer rest)
    rw [skipBlanks_newline, skipBlanks_written]
    exact first level _ (ends_newline _ _)
  | cons next others ih =>
    obtain ⟨bound, rfl⟩ :=
      Nat.exists_eq_succ_of_ne_zero (Nat.ne_zero_of_lt (Nat.lt_of_succ_lt_succ enough))
    refine readItems_next ?_ (skipBlanks_comma _) (ih next bound (Nat.lt_of_succ_lt_succ enough))
    rw [skipBlanks_newline, skipBlanks_written, writtenItems]
    simp only [List.cons_append, List.append_assoc]
    exact first level _ (ends_cons (by decide) _)

/-- **A list is read back item by item.** -/
theorem echoes_list {depth : Nat} {items echoes : List Json}
    (all : List.Forall₂ (Echoes (depth + 1)) items echoes) :
    Echoes (depth + 2) (.list items) (.list echoes) := by
  intro level rest ends
  cases all with
  | nil =>
    rw [written]
    rfl
  | @cons item echo items echoes first others =>
    obtain ⟨c, tail, shape, solid, other⟩ := written_begins (level + 1) item
    let inside := newline (level + 1) ++ (written (level + 1) item ++
      (writtenItems (level + 1) items ++ (newline level ++ ']' :: rest)))
    have whole : written level (.list (item :: items)) ++ rest = '[' :: inside := by
      rw [written]
      simp only [inside, List.cons_append, List.append_assoc, List.nil_append]
    have begins : skipBlanks inside = c :: (tail ++ (writtenItems (level + 1) items ++
        (newline level ++ ']' :: rest))) := by
      rw [skipBlanks_newline, skipBlanks_written, shape]
      rfl
    have enough : items.length < inside.length := by
      have counted := length_writtenItems (level + 1) items
      simp only [inside, newline, List.length_append, List.length_cons]
      omega
    have reads : readItems (readValue (depth + 1)) inside.length inside =
        some (echo :: echoes, rest) := readItems_echoes others first enough rest
    rw [whole, readValue, if_neg (Nat.succ_ne_zero depth), begins]
    split
    · next same => exact absurd (List.cons.inj same).1 other
    · rw [reads]
      rfl

theorem length_writtenFields (level : Nat) (fields : List (String × Json)) :
    fields.length ≤ (writtenFields level fields).length := by
  induction fields with
  | nil => exact Nat.zero_le _
  | cons field fields ih =>
    rw [writtenFields, List.length_append, List.length_append, List.length_append, List.length_cons,
      List.length_cons]
    omega

/-- A field that is read back under its name. -/
def FieldEchoes (depth : Nat) (field echo : String × Json) : Prop :=
  echo.1 = field.1 ∧ Echoes depth field.2 echo.2

theorem skipBlanks_quoted (name : String) (rest : List Char) :
    skipBlanks (quoted name ++ rest) = '"' :: (name.toList.flatMap escaped ++ '"' :: rest) := by
  rw [quoted, List.cons_append, List.append_assoc, List.singleton_append]
  refine skipBlanks_of_head fun c first => ?_
  cases first
  rfl

theorem readFields_last {item : List Char → Option (Json × List Char)} {value : Json}
    {cs named colon name valued rest after : List Char} (bound : Nat)
    (begins : skipBlanks cs = '"' :: named) (names : readText named = some (name, colon))
    (parts : skipBlanks colon = ':' :: valued)
    (reads : item (skipBlanks valued) = some (value, rest))
    (closes : skipBlanks rest = '}' :: after) :
    readFields item (bound + 1) cs = some ([(String.ofList name, value)], after) := by
  simp only [readFields, begins, names, parts, reads, closes]

theorem readFields_next {item : List Char → Option (Json × List Char)} {value : Json}
    {fields : List (String × Json)} {cs named colon name valued rest more after : List Char}
    {bound : Nat}
    (begins : skipBlanks cs = '"' :: named) (names : readText named = some (name, colon))
    (parts : skipBlanks colon = ':' :: valued)
    (reads : item (skipBlanks valued) = some (value, rest))
    (goesOn : skipBlanks rest = ',' :: more)
    (later : readFields item bound more = some (fields, after)) :
    readFields item (bound + 1) cs = some ((String.ofList name, value) :: fields, after) := by
  simp only [readFields, begins, names, parts, reads, goesOn, later, Option.map]

/-- Further fields are read back up to the closing brace. -/
theorem readFields_echoes {depth level outer bound : Nat} {fields echoes : List (String × Json)}
    (all : List.Forall₂ (FieldEchoes depth) fields echoes) {field echo : String × Json}
    (first : FieldEchoes depth field echo) (enough : fields.length < bound) (rest : List Char) :
    readFields (readValue depth) bound (newline level ++ (quoted field.1 ++ (':' :: ' ' ::
      (written level field.2 ++ (writtenFields level fields ++ (newline outer ++ '}' :: rest)))))) =
        some (echo :: echoes, rest) := by
  obtain ⟨bound, rfl⟩ := Nat.exists_eq_succ_of_ne_zero (Nat.ne_zero_of_lt enough)
  induction all generalizing field echo bound with
  | nil =>
    obtain ⟨name, value⟩ := echo
    obtain ⟨rfl, reads⟩ := first
    have last := readFields_last bound
      ((skipBlanks_newline level _).trans (skipBlanks_quoted field.1 _))
      (readText_quoted _ _) (skipBlanks_colon (' ' :: _))
      ((congrArg _ (skipBlanks_written level field.2 _)).trans
        (reads level _ (ends_newline outer _)))
      (skipBlanks_brace outer rest)
    rw [String.ofList_toList] at last
    rw [writtenFields]
    exact last
  | @cons other otherEcho others otherEchoes next all ih =>
    obtain ⟨name, value⟩ := echo
    obtain ⟨rfl, reads⟩ := first
    obtain ⟨bound, rfl⟩ :=
      Nat.exists_eq_succ_of_ne_zero (Nat.ne_zero_of_lt (Nat.lt_of_succ_lt_succ enough))
    have whole := readFields_next
      ((skipBlanks_newline level _).trans (skipBlanks_quoted field.1 _))
      (readText_quoted _ _) (skipBlanks_colon (' ' :: _))
      ((congrArg _ (skipBlanks_written level field.2 _)).trans
        (reads level _ (ends_cons (by decide) _)))
      (skipBlanks_comma _) (ih next bound (Nat.lt_of_succ_lt_succ enough))
    rw [String.ofList_toList] at whole
    rw [writtenFields]
    simp only [List.cons_append, List.append_assoc]
    exact whole

/-- **An object is read back field by field**, and comes back in the order of its names. -/
theorem echoes_object {depth : Nat} {fields echoes : List (String × Json)}
    (all : List.Forall₂ (FieldEchoes (depth + 1)) fields echoes) :
    Echoes (depth + 2) (.object fields) (.object (gather echoes)) := by
  intro level rest ends
  cases all with
  | nil =>
    rw [written]
    rfl
  | @cons field echo fields echoes first others =>
    obtain ⟨name, value⟩ := field
    let inside := newline (level + 1) ++ (quoted name ++ (':' :: ' ' ::
      (written (level + 1) value ++ (writtenFields (level + 1) fields ++
        (newline level ++ '}' :: rest)))))
    have whole : written level (.object ((name, value) :: fields)) ++ rest = '{' :: inside := by
      rw [written]
      simp only [inside, List.cons_append, List.append_assoc, List.nil_append]
    have begins : ∃ tail, skipBlanks inside = '"' :: tail := by
      rw [skipBlanks_newline, skipBlanks_quoted]
      exact ⟨_, rfl⟩
    have enough : fields.length < inside.length := by
      have counted := length_writtenFields (level + 1) fields
      simp only [inside, newline, List.length_append, List.length_cons]
      omega
    have reads : readFields (readValue (depth + 1)) inside.length inside =
        some (echo :: echoes, rest) := readFields_echoes others first enough rest
    obtain ⟨tail, begins⟩ := begins
    rw [whole, readValue, if_neg (Nat.succ_ne_zero depth), begins, reads]
    rfl

/-- **A document is read back.** -/
theorem read_render {value echo : Json} (echoes : Echoes depthBound value echo) :
    read (render value) = some echo := by
  have whole := echoes 0 [] (fun _ first => nomatch first)
  rw [List.append_nil] at whole
  have begins := skipBlanks_written 0 value []
  rw [List.append_nil] at begins
  rw [read, render, String.toList_ofList, begins, whole]
  rfl

/-! ## Part 2 — fields in order -/

/-- **Fields in the order of their names**, each name once. -/
def Ordered (fields : List (String × Json)) : Prop :=
  fields.Pairwise fun left right => left.1 < right.1

theorem mem_put {name : String} {value : Json} {fields : List (String × Json)}
    {field : String × Json} (member : field ∈ put name value fields) :
    field = (name, value) ∨ field ∈ fields := by
  induction fields with
  | nil => exact .inl (List.mem_singleton.mp member)
  | cons first rest ih =>
    rw [put] at member
    split at member
    · exact List.mem_cons.mp member
    · split at member
      · rcases List.mem_cons.mp member with same | later
        · exact .inl same
        · exact .inr (List.mem_cons_of_mem _ later)
      · rcases List.mem_cons.mp member with same | later
        · rw [same]
          exact .inr List.mem_cons_self
        · exact (ih later).imp_right (List.mem_cons_of_mem _)

theorem ordered_put {fields : List (String × Json)} (name : String) (value : Json)
    (ordered : Ordered fields) : Ordered (put name value fields) := by
  induction fields with
  | nil => exact List.pairwise_singleton _ _
  | cons first rest ih =>
    obtain ⟨least, others⟩ := List.pairwise_cons.mp ordered
    rw [put]
    split
    · next before =>
      refine List.pairwise_cons.mpr ⟨fun field member => ?_, ordered⟩
      rcases List.mem_cons.mp member with rfl | later
      · exact before
      · exact String.lt_trans before (least field later)
    · next notBefore =>
      split
      · next same =>
        refine List.pairwise_cons.mpr ⟨fun field member => ?_, others⟩
        show name < field.1
        rw [same]
        exact least field member
      · next different =>
        have after : first.1 < name := by
          refine Decidable.byContradiction fun notAfter => different ?_
          exact String.le_antisymm (String.not_lt.mp notAfter) (String.not_lt.mp notBefore)
        refine List.pairwise_cons.mpr ⟨fun field member => ?_, ih others⟩
        rcases mem_put member with rfl | later
        · exact after
        · exact least field later

/-- Fields are gathered one after the other. -/
theorem gather_concat (fields : List (String × Json)) (field : String × Json) :
    gather (fields ++ [field]) = put field.1 field.2 (gather fields) := by
  rw [gather, gather, List.foldl_append, List.foldl_cons, List.foldl_nil]

theorem ordered_gather (fields : List (String × Json)) : Ordered (gather fields) := by
  induction fields using List.reverseRecOn with
  | nil => exact List.Pairwise.nil
  | append_singleton fields field ih =>
    rw [gather_concat]
    exact ordered_put _ _ ih

/-- **Fields with names of their own** are found as they were before they were gathered. -/
theorem lookup_gather {fields : List (String × Json)}
    (distinct : fields.Pairwise fun left right => left.1 ≠ right.1) (key : String) :
    (gather fields).lookup key = fields.lookup key := by
  induction fields using List.reverseRecOn with
  | nil => rfl
  | append_singleton fields field ih =>
    obtain ⟨earlier, -, apart⟩ := List.pairwise_append.mp distinct
    rw [gather_concat, lookup_put, List.lookup_append, ih earlier, List.lookup_cons]
    split
    · next same =>
      have absent : fields.lookup key = none := by
        refine List.lookup_eq_none_iff.mpr fun other member => bne_iff_ne.mpr ?_
        rw [same]
        exact Ne.symm (apart other member field List.mem_cons_self)
      rw [absent, same, beq_self_eq_true]
      rfl
    · next different =>
      rw [beq_eq_false_iff_ne.mpr different, List.lookup_nil, Option.or_none]

theorem Ordered.distinct {fields : List (String × Json)} (ordered : Ordered fields) :
    fields.Pairwise fun left right => left.1 ≠ right.1 := by
  refine ordered.imp fun {left right} before same => ?_
  rw [same] at before
  exact String.lt_irrefl _ before

theorem lookup_eq_some_iff_mem {fields : List (String × Json)}
    (distinct : fields.Pairwise fun left right => left.1 ≠ right.1) {key : String} {value : Json} :
    fields.lookup key = some value ↔ (key, value) ∈ fields := by
  induction fields with
  | nil => simp
  | cons first rest ih =>
    obtain ⟨apart, others⟩ := List.pairwise_cons.mp distinct
    rw [List.lookup_cons, List.mem_cons, ← ih others]
    by_cases same : key = first.1
    · have absent : rest.lookup key = none :=
        List.lookup_eq_none_iff.mpr fun other member =>
          bne_iff_ne.mpr (by rw [same]; exact apart other member)
      rw [absent, same, beq_self_eq_true]
      simp [Prod.ext_iff, eq_comm]
    · rw [beq_eq_false_iff_ne.mpr same]
      simp [Prod.ext_iff, same]

/-- **Fields in order are known by what they are.** -/
theorem eq_of_mem_iff {left right : List (String × Json)} (ordered : Ordered left)
    (alike : Ordered right) (members : ∀ field, field ∈ left ↔ field ∈ right) : left = right := by
  have nodup : ∀ {fields : List (String × Json)}, Ordered fields → fields.Nodup :=
    fun ordered => ordered.distinct.imp fun different same => different (congrArg Prod.fst same)
  refine List.Perm.eq_of_pairwise (fun one other _ _ before after => ?_) ordered alike
    ((List.perm_ext_iff_of_nodup (nodup ordered) (nodup alike)).mpr members)
  exact absurd after (String.lt_asymm before)

/-- **Fields with names of their own** are kept when they are gathered. -/
theorem mem_gather {fields : List (String × Json)}
    (distinct : fields.Pairwise fun left right => left.1 ≠ right.1) (field : String × Json) :
    field ∈ gather fields ↔ field ∈ fields := by
  obtain ⟨key, value⟩ := field
  rw [← lookup_eq_some_iff_mem (ordered_gather fields).distinct, lookup_gather distinct,
    lookup_eq_some_iff_mem distinct]

/-- Fields in order stay as they are. -/
theorem gather_of_ordered {fields : List (String × Json)} (ordered : Ordered fields) :
    gather fields = fields :=
  eq_of_mem_iff (ordered_gather fields) ordered (mem_gather ordered.distinct)

/-! ## Part 3 — what can be read -/

/-- **A value that can be read** with a given bound on how deep it nests. -/
inductive Readable : Nat → Json → Prop
  | null {depth : Nat} : Readable (depth + 1) .null
  | bool {depth : Nat} {value : Bool} : Readable (depth + 1) (.bool value)
  | integer {depth : Nat} {value : Int} (fits : FitsWord value) :
      Readable (depth + 1) (.number (.integer value))
  | real {depth : Nat} {value : Double} : Readable (depth + 1) (.number (.real value))
  | text {depth : Nat} {content : String} : Readable (depth + 1) (.text content)
  | list {depth : Nat} {items : List Json} (all : ∀ item ∈ items, Readable (depth + 1) item) :
      Readable (depth + 2) (.list items)
  | object {depth : Nat} {fields : List (String × Json)} (ordered : Ordered fields)
      (all : ∀ field ∈ fields, Readable (depth + 1) field.2) :
      Readable (depth + 2) (.object fields)

/-- **A floating point number that is somewhere in a value.** -/
inductive HasReal (real : Double) : Json → Prop
  | number : HasReal real (.number (.real real))
  | item {items : List Json} {item : Json} (member : item ∈ items) (inside : HasReal real item) :
      HasReal real (.list items)
  | field {fields : List (String × Json)} {field : String × Json} (member : field ∈ fields)
      (inside : HasReal real field.2) : HasReal real (.object fields)

@[simp] theorem hasReal_real {real other : Double} :
    HasReal real (.number (.real other)) ↔ other = real :=
  ⟨fun inside => by cases inside; rfl, fun same => same ▸ .number⟩

@[simp] theorem hasReal_list {real : Double} {items : List Json} :
    HasReal real (.list items) ↔ ∃ item ∈ items, HasReal real item :=
  ⟨fun inside => by cases inside with | item member inside => exact ⟨_, member, inside⟩,
    fun ⟨_, member, inside⟩ => .item member inside⟩

@[simp] theorem hasReal_object {real : Double} {fields : List (String × Json)} :
    HasReal real (.object fields) ↔ ∃ field ∈ fields, HasReal real field.2 :=
  ⟨fun inside => by cases inside with | field member inside => exact ⟨_, member, inside⟩,
    fun ⟨_, member, inside⟩ => .field member inside⟩

@[simp] theorem not_hasReal_integer {real : Double} {value : Int} :
    ¬ HasReal real (.number (.integer value)) := by
  rintro ⟨⟩

@[simp] theorem not_hasReal_null {real : Double} : ¬ HasReal real .null := by
  rintro ⟨⟩

@[simp] theorem not_hasReal_text {real : Double} {content : String} :
    ¬ HasReal real (.text content) := by
  rintro ⟨⟩

/-- **What can be read is read back**, if the floating point numbers in it are. -/
theorem Readable.echoes {depth : Nat} {value : Json} (readable : Readable depth value)
    (back : ∀ real, HasReal real value → ReadsBack real) : Echoes depth value value := by
  induction readable with
  | null => exact echoes_null _
  | bool => exact echoes_bool _ _
  | integer fits => exact echoes_integer _ fits
  | real => exact echoes_real _ (back _ .number)
  | text => exact echoes_text _ _
  | list all ih =>
    exact echoes_list (List.forall₂_same.mpr fun item member =>
      ih item member fun real inside => back real (.item member inside))
  | object ordered all ih =>
    have fields := echoes_object (List.forall₂_same.mpr fun field member =>
      ⟨rfl, ih field member fun real inside => back real (.field member inside)⟩)
    rwa [gather_of_ordered ordered] at fields

/-- The items of a list can be read one level further down. -/
theorem Readable.of_list {depth : Nat} {items : List Json}
    (readable : Readable depth (.list items)) :
    ∀ item ∈ items, Readable (depth - 1) item := by
  cases readable with
  | list all => exact all

/-- The fields of an object are in order, and can be read one level further down. -/
theorem Readable.of_object {depth : Nat} {fields : List (String × Json)}
    (readable : Readable depth (.object fields)) :
    Ordered fields ∧ ∀ field ∈ fields, Readable (depth - 1) field.2 := by
  cases readable with
  | object ordered all => exact ⟨ordered, all⟩

end ShaderForge.Json

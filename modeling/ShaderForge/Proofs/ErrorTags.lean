/-
**Error tags.**

A log reports a failure in two ways: among its findings there is an error, or the word `ERROR`
stands in square brackets somewhere in it. The first is read off the compiler's part of the log
only, and off the text after a tag; the second off the whole log. The second covers the first:

* `reportsError_iff`: the scan of the whole log finds exactly an error tag (`HasErrorTag`), in any
  case, wherever it stands;
* `hasErrorTag_of_errors`: an error among the findings of the compiler's part has such a tag in the
  log, since that part is cut out of the log (`outputBlock_within`) and every block begins with its
  tag (`mem_cut`).
-/

import ShaderForge.Diagnostic.Parser
import ShaderForge.Job.Remote
import ShaderForge.Proofs.OutputLines

namespace ShaderForge

/-- **An error tag in a log**: the word in square brackets, in any case. -/
def HasErrorTag (log : String) : Prop :=
  ∃ before name after, log.toList = before ++ '[' :: (name ++ ']' :: after) ∧
    name.map Char.toUpper = "ERROR".toList

/-! ## Part 1 — the scan of the whole log -/

/-- Only letters have an upper case of their own, which is a letter. -/
theorem eq_of_toUpper_eq {c sign : Char} (upper : c.toUpper = sign)
    (noLetter : sign.toNat < 'A'.toNat ∨ 'Z'.toNat < sign.toNat) : c = sign := by
  unfold Char.toUpper at upper
  split at upper
  · next letter =>
    have least : 97 ≤ c.val.toNat := UInt32.le_iff_toNat_le.mp letter.1
    have most : c.val.toNat ≤ 122 := UInt32.le_iff_toNat_le.mp letter.2
    have value : (c.val + ('A'.val - 'a'.val)).toNat = sign.toNat := by
      rw [← upper]
      rfl
    have shift : ('A'.val - 'a'.val).toNat = 4294967264 := by decide
    have bounds : sign.toNat < 65 ∨ 90 < sign.toNat := noLetter
    rw [UInt32.toNat_add, shift] at value
    omega
  · exact upper

/-- **The scan of a log finds exactly an error tag.** -/
theorem reportsError_iff (log : String) : Job.reportsError log = true ↔ HasErrorTag log := by
  have split : "[ERROR]".toList = '[' :: ("ERROR".toList ++ [']']) := by decide
  have letters : (Text.upper log).toList = log.toList.map Char.toUpper := String.toList_ofList
  rw [Job.reportsError, occurs_iff, split, letters]
  constructor
  · rintro ⟨before, after, whole⟩
    obtain ⟨front, after', same, rest, -⟩ := List.map_eq_append_iff.mp whole.symm
    obtain ⟨before', tag, rfl, -, rest⟩ := List.map_eq_append_iff.mp rest
    obtain ⟨opening, tag, rfl, opens, rest⟩ := List.map_eq_cons_iff.mp rest
    obtain ⟨name, closing, rfl, named, rest⟩ := List.map_eq_append_iff.mp rest
    obtain ⟨closing, nothing, rfl, closes, rest⟩ := List.map_eq_cons_iff.mp rest
    rw [List.map_eq_nil_iff.mp rest, eq_of_toUpper_eq opens (by decide),
      eq_of_toUpper_eq closes (by decide)] at same
    refine ⟨before', name, after', ?_, named⟩
    rw [same]
    simp
  · rintro ⟨before, name, after, whole, named⟩
    refine ⟨before.map Char.toUpper, after.map Char.toUpper, ?_⟩
    rw [whole, ← named]
    simp

/-! ## Part 2 — the findings of the compiler's part -/

/-- The name of a tag in upper case. -/
def Tag.name : Tag → String
  | error => "ERROR"
  | warning => "WARNING"
  | info => "INFO"
  | debug => "DEBUG"
  | verbose => "VERBOSE"

/-- **A tag goes by its name in any case**, and by nothing else. -/
theorem Tag.ofName?_eq_some_iff {name : List Char} {tag : Tag} :
    Tag.ofName? name = some tag ↔ name.map Char.toUpper = tag.name.toList := by
  have upper : Text.upper (String.ofList name) = String.ofList (name.map Char.toUpper) := by
    rw [Text.upper, String.toList_ofList]
  rw [Tag.ofName?, upper]
  constructor
  · intro found
    obtain ⟨before, after, among, -⟩ := List.lookup_eq_some_iff.mp found
    have member : (String.ofList (name.map Char.toUpper), tag) ∈ Tag.named := by
      rw [among]
      exact List.mem_append_right _ List.mem_cons_self
    have listed : ∀ entry ∈ Tag.named, entry.1 = entry.2.name := by decide
    rw [← listed _ member, String.toList_ofList]
  · intro same
    rw [same, String.ofList_toList]
    cases tag <;> decide

/-- A tag is its name in square brackets. -/
theorem tagAt?_eq_some {cs rest : List Char} {tag : Tag} (here : tagAt? cs = some (tag, rest)) :
    ∃ name, cs = name ++ ']' :: rest ∧ Tag.ofName? name = some tag := by
  unfold tagAt? at here
  dsimp only at here
  split at here
  · next after closed =>
    obtain ⟨found, named, pair⟩ := Option.map_eq_some_iff.mp here
    cases pair
    refine ⟨_, ?_, named⟩
    rw [← closed]
    have taken := List.takeWhile_prefix (· != ']') (l := cs.take (Tag.longest + 1))
    have short := taken.trans (List.take_prefix _ cs)
    exact (List.prefix_iff_eq_append.mp short).symm
  · cases here

/-- What is in no name of a tag in upper case does not stand in one. -/
theorem not_mem_of_ofName? {name : List Char} {tag : Tag} (named : Tag.ofName? name = some tag)
    {sign : Char} (foreign : sign.toUpper ∉ tag.name.toList) : sign ∉ name := by
  intro inside
  rw [← Tag.ofName?_eq_some_iff.mp named] at foreign
  exact foreign (List.mem_map_of_mem inside)

/-- A name is at most as long as the longest one. -/
theorem length_le_of_ofName? {name : List Char} {tag : Tag} (named : Tag.ofName? name = some tag) :
    name.length ≤ Tag.longest := by
  have same := congrArg List.length (Tag.ofName?_eq_some_iff.mp named)
  rw [List.length_map] at same
  rw [same]
  cases tag <;> decide

/-- A name in square brackets is a tag, whatever follows it. -/
theorem tagAt?_name {name : List Char} {tag : Tag} (named : Tag.ofName? name = some tag)
    (rest : List Char) : tagAt? (name ++ ']' :: rest) = some (tag, rest) := by
  have unclosed : ∀ c ∈ name, (c != ']') = true := by
    intro c inside
    have other : ']' ∉ name := not_mem_of_ofName? named (by cases tag <;> decide)
    exact bne_iff_ne.mpr fun same => other (same ▸ inside)
  have short := length_le_of_ofName? named
  obtain ⟨room, enough⟩ : ∃ room, Tag.longest + 1 - name.length = room + 1 :=
    ⟨Tag.longest - name.length, by omega⟩
  have taken : ((name ++ ']' :: rest).take (Tag.longest + 1)).takeWhile (· != ']') = name := by
    rw [List.take_append, List.take_of_length_le (by omega), enough, List.take_succ_cons,
      List.takeWhile_append_of_pos unclosed, List.takeWhile_cons_of_neg (by decide),
      List.append_nil]
  unfold tagAt?
  dsimp only
  rw [taken, List.drop_left, named]
  rfl

/-- **A tag opens a block that goes on to the next tag.** -/
theorem cut_tag {name : List Char} {tag : Tag} (named : Tag.ofName? name = some tag)
    (rest : List Char) :
    cut ('[' :: (name ++ ']' :: rest)) = ([], ⟨tag, (cut rest).1⟩ :: (cut rest).2) := by
  have here := tagAt?_name named rest
  rw [cut, if_pos rfl]
  split
  · next tag' after found =>
    rw [here] at found
    cases found
    rfl
  · next nothing =>
    rw [here] at nothing
    cases nothing

/-- **Every block has its tag in the text.** -/
theorem mem_cut {cs : List Char} {block : Block} (member : block ∈ (cut cs).2) :
    ∃ before name after, cs = before ++ '[' :: (name ++ ']' :: after) ∧
      Tag.ofName? name = some block.tag := by
  fun_induction cut cs with
  | case1 => cases member
  | case2 cs tag rest here parts ih =>
    obtain ⟨name, whole, named⟩ := tagAt?_eq_some here
    rcases List.mem_cons.mp member with rfl | later
    · exact ⟨[], name, rest, by rw [whole, List.nil_append], named⟩
    · obtain ⟨before, name', after, same, named'⟩ := ih later
      refine ⟨'[' :: (name ++ ']' :: before), name', after, ?_, named'⟩
      rw [whole, same]
      simp
  | case3 cs nothing parts ih =>
    obtain ⟨before, name, after, same, named⟩ := ih member
    exact ⟨'[' :: before, name, after, by rw [same, List.cons_append], named⟩
  | case4 c cs other parts ih =>
    obtain ⟨before, name, after, same, named⟩ := ih member
    exact ⟨c :: before, name, after, by rw [same, List.cons_append], named⟩

/-- **The compiler's part is cut out of the log.** -/
theorem outputBlock_within (log : String) : (outputBlock log).toList <:+: log.toList := by
  obtain ⟨front, part, back, parts, taken⟩ := exists_compilerPart log
  have whole := parts.toList_eq
  rw [taken, extract_offsetBehind log whole, String.toList_ofList]
  exact ⟨front.flatten, back.flatten, whole.symm⟩

theorem HasErrorTag.of_within {part log : String} (inside : part.toList <:+: log.toList)
    (tagged : HasErrorTag part) : HasErrorTag log := by
  obtain ⟨front, back, whole⟩ := inside
  obtain ⟨before, name, after, same, named⟩ := tagged
  refine ⟨front ++ before, name, after ++ back, ?_, named⟩
  rw [← whole, same]
  simp

theorem Tag.eq_error_of_severity? {tag : Tag} (grave : tag.severity? = some .error) :
    tag = .error := by
  cases tag with
  | error => rfl
  | warning | info | debug | verbose => cases grave

/-- Only a block with the tag of errors is an error. -/
theorem tag_of_error {reader : OutputReader} {block : Block} {diagnostic : Diagnostic}
    (found : reader.ofBlock? block = some diagnostic) (grave : diagnostic.severity = .error) :
    block.tag = .error := by
  unfold OutputReader.ofBlock? at found
  split at found
  · cases found
  · next severity introduced =>
    split at found
    · cases found
    · cases found
      have same : severity = .error := grave
      exact Tag.eq_error_of_severity? (same ▸ introduced)

/-- **An error among the findings of the compiler's part has its tag in the log.** -/
theorem hasErrorTag_of_errors {reader : OutputReader} {log : String}
    (errors : 0 < errorCount (reader.parse (outputBlock log))) : HasErrorTag log := by
  obtain ⟨diagnostic, member, isError⟩ := List.countP_pos_iff.mp errors
  obtain ⟨block, among, found⟩ := List.mem_filterMap.mp member
  obtain ⟨cutBlock, there, rfl⟩ := List.mem_map.mp among
  have tagged := tag_of_error found (of_decide_eq_true isError)
  dsimp only at tagged
  obtain ⟨before, name, after, whole, named⟩ := mem_cut there
  exact HasErrorTag.of_within (outputBlock_within log)
    ⟨before, name, after, whole, Tag.ofName?_eq_some_iff.mp (tagged ▸ named)⟩

/-- **Both scans together find exactly an error tag.** -/
theorem failed_iff (reader : OutputReader) (log : String) :
    (decide (0 < errorCount (reader.parse (outputBlock log))) || Job.reportsError log) = true ↔
      HasErrorTag log := by
  rw [Bool.or_eq_true, decide_eq_true_eq, reportsError_iff]
  exact or_iff_right_of_imp hasErrorTag_of_errors

end ShaderForge

/-
**Cutting text.**

* `pieces sep cs`: the parts of `cs` between separators, one more than there are separators;
* `linesKept`: the lines of a text, each with the newline that ends it;
* `lines`: the same lines without their line ends (`\n` or `\r\n`);
* `occurs`: whether one text is found inside another.

`join_pieces` and `flatten_linesKept` say that cutting loses nothing.
-/

namespace ShaderForge.Text

/-! ## Part 1 — at a separator -/

/-- The parts between separators. -/
def pieces (sep : Char) : List Char → List (List Char)
  | [] => [[]]
  | c :: cs =>
    if c = sep then [] :: pieces sep cs
    else match pieces sep cs with
      | [] => [[c]]
      | part :: parts => (c :: part) :: parts

/-- The parts with a separator between each two. -/
def joinPieces (sep : Char) : List (List Char) → List Char
  | [] => []
  | [part] => part
  | part :: next :: parts => part ++ sep :: joinPieces sep (next :: parts)

/-- There is at least one part. -/
theorem pieces_ne_nil (sep : Char) (cs : List Char) : pieces sep cs ≠ [] := by
  cases cs with
  | nil => simp [pieces]
  | cons c cs =>
    rw [pieces]
    split
    · simp
    · split <;> simp

/-- Joining what was cut gives the text back. -/
theorem join_pieces (sep : Char) (cs : List Char) : joinPieces sep (pieces sep cs) = cs := by
  induction cs with
  | nil => rfl
  | cons c cs restored =>
    rw [pieces]
    split
    · next same =>
      cases cut : pieces sep cs with
      | nil => exact absurd cut (pieces_ne_nil sep cs)
      | cons part parts =>
        rw [cut] at restored
        rw [joinPieces, restored, same]
        rfl
    · cases cut : pieces sep cs with
      | nil => exact absurd cut (pieces_ne_nil sep cs)
      | cons part parts =>
        rw [cut] at restored
        cases parts with
        | nil =>
          have only : part = cs := restored
          rw [only]
          rfl
        | cons next parts =>
          have whole : part ++ sep :: joinPieces sep (next :: parts) = cs := restored
          show (c :: part) ++ sep :: joinPieces sep (next :: parts) = c :: cs
          rw [List.cons_append, whole]

/-! ## Part 2 — lines -/

/-- The lines of a text with their newlines. -/
def linesKept : List Char → List (List Char)
  | [] => []
  | c :: cs =>
    if c = '\n' then [c] :: linesKept cs
    else match linesKept cs with
      | [] => [[c]]
      | line :: more => (c :: line) :: more

/-- The lines of a text together are the text. -/
theorem flatten_linesKept (cs : List Char) : (linesKept cs).flatten = cs := by
  induction cs with
  | nil => rfl
  | cons c cs restored =>
    rw [linesKept]
    split
    · rw [List.flatten_cons, restored]
      rfl
    · cases cut : linesKept cs with
      | nil =>
        rw [cut] at restored
        rw [← restored]
        rfl
      | cons line more =>
        rw [cut] at restored
        rw [← restored]
        rfl

/-- A line without its end: a final newline goes, and a carriage return before it. -/
def withoutEnd (line : List Char) : List Char :=
  match line.reverse with
  | '\n' :: '\r' :: rest => rest.reverse
  | '\n' :: rest => rest.reverse
  | _ => line

/-- The lines of a text without their ends. -/
def lines (text : String) : List String :=
  (linesKept text.toList).map fun line => String.ofList (withoutEnd line)

/-! ## Part 3 — one text inside another -/

/-- Whether `pattern` stands somewhere in the text. -/
def occurs (pattern : List Char) : List Char → Bool
  | [] => pattern.isEmpty
  | c :: cs => pattern.isPrefixOf (c :: cs) || occurs pattern cs

end ShaderForge.Text

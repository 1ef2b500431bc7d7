/-
**TOML documents.**

A document is a table of entries. Tables come into being in four ways, and the way decides what may
still be added to them:

* *headed*: by a header of their own, once;
* *implied*: by the header of a table inside them; their own header may still follow;
* *dotted*: by a dotted key; more dotted keys may add to them, a header may not;
* *inline*: by a value in braces, which is closed for good.

Of lists of tables only the last table can grow, and so only that one is kept.

* `within`: an edit of the table that a header names;
* `assign`: an entry set under a dotted key.
-/

namespace ShaderForge

/-- How a table came into being. -/
inductive TableKind
  | headed
  | implied
  | dotted
  | inline
deriving DecidableEq

/-- Values that are neither text nor tables. -/
inductive PlainKind
  | integer
  | real
  | boolean
  | moment
  | list
deriving DecidableEq

/-- **A value of a document.** -/
inductive Toml
  | text (content : String)
  | plain (kind : PlainKind)
  | table (kind : TableKind) (entries : List (String × Toml))
  | tables (last : List (String × Toml))

namespace Toml

/-- The entries of a table. -/
abbrev Entries := List (String × Toml)

/-- An entry set, in place of an earlier one of its name or after all others. -/
def setEntry (name : String) (value : Toml) : Entries → Entries
  | [] => [(name, value)]
  | entry :: entries =>
    if entry.1 = name then (name, value) :: entries else entry :: setEntry name value entries

/-- **An edit of the table that a header names**; tables on the way are implied. -/
def within (edit : Entries → Option Entries) : List String → Entries → Option Entries
  | [], entries => edit entries
  | name :: more, entries =>
    match entries.lookup name with
    | none => (within edit more []).map fun inner => setEntry name (.table .implied inner) entries
    | some (.table .inline _) => none
    | some (.table kind inner) =>
      (within edit more inner).map fun changed => setEntry name (.table kind changed) entries
    | some (.tables inner) =>
      (within edit more inner).map fun changed => setEntry name (.tables changed) entries
    | some _ => none

/-- A table given a header of its own. -/
def headTable (name : String) (entries : Entries) : Option Entries :=
  match entries.lookup name with
  | none => some (setEntry name (.table .headed []) entries)
  | some (.table .implied inner) => some (setEntry name (.table .headed inner) entries)
  | some _ => none

/-- A new last table of a list of tables. -/
def headElement (name : String) (entries : Entries) : Option Entries :=
  match entries.lookup name with
  | none => some (setEntry name (.tables []) entries)
  | some (.tables _) => some (setEntry name (.tables []) entries)
  | some _ => none

/-- **An entry under a dotted key.** The key must be new, and the table that takes the entry, if the
key has several parts, must itself come from dotted keys. -/
def assign (mayEnd : Bool) (key : String) (value : Toml) : List String → Entries → Option Entries
  | [], entries =>
    if !mayEnd || (entries.lookup key).isSome then none else some (entries ++ [(key, value)])
  | name :: more, entries =>
    match entries.lookup name with
    | none =>
      (assign true key value more []).map fun inner => setEntry name (.table .dotted inner) entries
    | some (.table .dotted inner) =>
      (assign true key value more inner).map fun changed =>
        setEntry name (.table .dotted changed) entries
    | some (.table .implied inner) =>
      (assign false key value more inner).map fun changed =>
        setEntry name (.table .implied changed) entries
    | some (.tables inner) =>
      (assign false key value more inner).map fun changed => setEntry name (.tables changed) entries
    | some _ => none

end Toml

end ShaderForge

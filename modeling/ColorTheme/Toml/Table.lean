import ColorTheme.Entries

/-!
# Tables in TOML

A document is a table whose entries are given one after the other, directly or by headers.  No
entry can be given twice, and what a header has opened cannot be reached by dotted keys.

* `Toml.define` gives a value to a dotted key.
* `Toml.openTable` and `Toml.openElement` carry out the two kinds of headers.
-/

set_option autoImplicit false

namespace ColorTheme

/-- How a table came about: by a header of its own, by the header of a table inside it, by a
dotted key, or between braces. -/
inductive TableOrigin
  | header
  | implied
  | dotted
  | inline
deriving Repr, DecidableEq

/-- A value of a document.  Numbers, dates and times are known by their wording alone. -/
inductive Toml
  | text (s : String)
  | truth (b : Bool)
  | word (s : String)
  | array (items : List Toml)
  | table (origin : TableOrigin) (entries : List (String × Toml))
  | tables (all : List (List (String × Toml)))
deriving Repr, Inhabited

namespace Toml

/-- The entries of a table. -/
abbrev Table := Entries String Toml

/-- A change of the entries of a table, which may be refused. -/
abbrev Change := TableOrigin → Table → Option Table

/-- Changes the table that `path` leads to.  Tables missing on the way are made, and are of origin
`origin`; of several tables the last one is meant.  A table between braces cannot be changed, and
dotted keys cannot change one that has a header. -/
def changeAt (origin : TableOrigin) (change : Change) : List String → Change
  | [], here, entries => change here entries
  | key :: path, _, entries =>
    match entries.get? key with
    | none =>
      (changeAt origin change path origin []).map fun made => entries.put key (.table origin made)
    | some (.table kind inner) =>
      if kind = .inline ∨ (origin = .dotted ∧ kind = .header) then none
      else
        (changeAt origin change path kind inner).map fun changed =>
          entries.put key (.table kind changed)
    | some (.tables all) =>
      match all.getLast? with
      | none => none
      | some last =>
        (changeAt origin change path .header last).map fun changed =>
          entries.put key (.tables (all.dropLast ++ [changed]))
    | some _ => none

/-- A new entry.  A table made by dotted keys takes entries from dotted keys alone, and no other
table does so. -/
def addEntry (byDots : Bool) (key : String) (value : Toml) : Change := fun origin entries =>
  if (origin == .dotted) != byDots then none
  else if (entries.get? key).isSome then none
  else some (entries ++ [(key, value)])

/-- Gives a value to a dotted key, which consists of `path` and `key`. -/
def define (path : List String) (key : String) (value : Toml) : Table → Option Table :=
  changeAt .dotted (addEntry (!path.isEmpty) key value) path .header

/-- Opens the table of a header.  It may have come about by headers of tables inside it. -/
def openTable (path : List String) (key : String) : Table → Option Table :=
  changeAt .implied (fun _ entries =>
    match entries.get? key with
    | none => some (entries ++ [(key, .table .header [])])
    | some (.table .implied inner) =>
      some (entries.filter (·.1 != key) ++ [(key, .table .header inner)])
    | some _ => none) path .header

/-- Opens one more table under the key of a header. -/
def openElement (path : List String) (key : String) : Table → Option Table :=
  changeAt .implied (fun _ entries =>
    match entries.get? key with
    | none => some (entries ++ [(key, .tables [[]])])
    | some (.tables all) => some (entries.put key (.tables (all ++ [[]])))
    | some _ => none) path .header

/-- Gives a value to a dotted key in the table that a header has opened. -/
def defineIn (header path : List String) (key : String) (value : Toml) : Table → Option Table :=
  changeAt .implied (fun _ entries => define path key value entries) header .header

end Toml

end ColorTheme

/-
# ReplicaDiff.Toml.Value — what a TOML document says

A document is a table of values by key.  Tables remember how they came about,
because that decides what a document may still add to them: a table written in
one piece is closed, a table with a header of its own may not be extended by
dotted keys, and a table that was only mentioned on the way to another may still
get its header.
-/

namespace ReplicaDiff.Toml

set_option autoImplicit false

/-- How a table came about. -/
inductive Origin where
  /-- It was written in one piece, as a value. -/
  | whole
  /-- It has a header of its own, or is the document. -/
  | header
  /-- It was mentioned in the header of a table inside it. -/
  | implied
  /-- It was mentioned in a dotted key. -/
  | dotted
deriving DecidableEq

/-- A value; of numbers with a fraction, and of dates and times, only the kind is kept. -/
inductive Value where
  | text (s : String)
  | integer (n : Int)
  | float
  | boolean (b : Bool)
  | moment
  | list (items : List Value)
  | table (origin : Origin) (entries : List (String × Value))
  | tables (items : List (List (String × Value)))

/-- The values of a table by key. -/
abbrev Entries := List (String × Value)

namespace Entries

/-- The value of a key. -/
def find? (key : String) : Entries → Option Value
  | [] => none
  | (k, v) :: rest => if k = key then some v else find? key rest

/-- The entries with another value for a key that has one. -/
def replace (key : String) (value : Value) : Entries → Entries
  | [] => []
  | (k, v) :: rest => if k = key then (k, value) :: rest else (k, v) :: replace key value rest

/-- The entries with a value for a new key. -/
def add (key : String) (value : Value) (entries : Entries) : Entries := entries ++ [(key, value)]

/-- Change the table that a path leads to.  Tables on the way are made where there are none; a
path of a dotted key may only pass through tables without a header.  An array of tables stands for
its last table. -/
def changeAt (change : Origin → Entries → Option Entries) (dotted : Bool) :
    List String → Origin → Entries → Option Entries
  | [], origin, entries => change origin entries
  | key :: path, _, entries =>
      match find? key entries with
      | none => do
          let made := if dotted then Origin.dotted else Origin.implied
          let inner ← changeAt change dotted path made []
          return add key (.table made inner) entries
      | some (.table origin inner) =>
          if origin = .whole ∨ (dotted = true ∧ origin = .header) then none
          else do
            let inner ← changeAt change dotted path origin inner
            return replace key (.table origin inner) entries
      | some (.tables items) =>
          match items.getLast? with
          | none => none
          | some last => do
              let last ← changeAt change dotted path .header last
              return replace key (.tables (items.dropLast ++ [last])) entries
      | some _ => none

/-- Give a value to a dotted key, which must be new; its table must have been made by dotted keys
too. -/
def putDotted (path : List String) (key : String) (value : Value) :
    Origin → Entries → Option Entries :=
  changeAt
    (fun origin entries =>
      if path.isEmpty = decide (origin = .dotted) then none
      else if (find? key entries).isSome then none
      else some (add key value entries))
    true path

/-- Begin a table with a header. -/
def openTable (path : List String) (key : String) (entries : Entries) : Option Entries :=
  changeAt
    (fun _ entries =>
      match find? key entries with
      | none => some (add key (.table .header []) entries)
      | some (.table .implied inner) => some (replace key (.table .header inner) entries)
      | some _ => none)
    false path .header entries

/-- Begin another table of an array of tables. -/
def openTables (path : List String) (key : String) (entries : Entries) : Option Entries :=
  changeAt
    (fun _ entries =>
      match find? key entries with
      | none => some (add key (.tables [[]]) entries)
      | some (.tables items) => some (replace key (.tables (items ++ [[]])) entries)
      | some _ => none)
    false path .header entries

/-- Give a value to a dotted key below a header. -/
def putBelow (header path : List String) (key : String) (value : Value) (entries : Entries) :
    Option Entries :=
  changeAt (putDotted path key value) false header .header entries

end Entries

end ReplicaDiff.Toml

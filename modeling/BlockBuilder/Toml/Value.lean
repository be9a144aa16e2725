/-!
# TOML values

A document is a table of values. How a table came to be decides how it may still be extended: a
table that a header names takes keys while that header is current and sub-tables later; one that
only occurs on the way to another may still be named, once; one that a dotted key made takes more
dotted keys but no header of its own; one that was written inline is closed.

Every operation refuses by giving nothing. Entries keep the order in which they were written.
-/
namespace BlockBuilder.Toml

inductive Origin where
  | header
  | implied
  | dotted
  | inline
  deriving DecidableEq, Inhabited

inductive Value where
  | text (content : String)
  | integer (number : Int)
  | boolean (value : Bool)
  | float
  | datetime
  | array (items : List Value)
  | table (origin : Origin) (entries : List (String × Value))
  | tables (elements : List (List (String × Value)))
  deriving Inhabited

abbrev Entries := List (String × Value)

namespace Entries

def replace (key : String) (value : Value) : Entries → Entries
  | [] => []
  | (other, old) :: rest =>
    if other = key then (key, value) :: rest else (other, old) :: replace key value rest

def insertNew (key : String) (value : Value) (entries : Entries) : Option Entries :=
  match entries.lookup key with
  | none => some (entries ++ [(key, value)])
  | some _ => none

def updateLast (step : Entries → Option Entries) : List Entries → Option (List Entries)
  | [] => none
  | [last] => (step last).map ([·])
  | first :: second :: rest => (updateLast step (second :: rest)).map (first :: ·)

/-- Changes the table that a header's path leads to, through the last of repeated tables; missing
tables on the way are implied. -/
def updateAt (step : Entries → Option Entries) : List String → Entries → Option Entries
  | [], entries => step entries
  | key :: path, entries =>
    match entries.lookup key with
    | none => (updateAt step path []).map fun inner => entries ++ [(key, .table .implied inner)]
    | some (.table .inline _) => none
    | some (.table origin inner) =>
      (updateAt step path inner).map fun inner => replace key (.table origin inner) entries
    | some (.tables elements) =>
      (updateLast (updateAt step path) elements).map fun elements =>
        replace key (.tables elements) entries
    | some _ => none

def openTable (key : String) (entries : Entries) : Option Entries :=
  match entries.lookup key with
  | none => some (entries ++ [(key, .table .header [])])
  | some (.table .implied inner) => some (replace key (.table .header inner) entries)
  | some _ => none

def appendTable (key : String) (entries : Entries) : Option Entries :=
  match entries.lookup key with
  | none => some (entries ++ [(key, .tables [[]])])
  | some (.tables elements) => some (replace key (.tables (elements ++ [[]])) entries)
  | some _ => none

/-- Adds a value under a dotted key. Only a table that is being written, or that dotted keys made,
takes values; others may lie on the way. -/
def assign (takesKeys : Bool) (value : Value) : List String → String → Entries → Option Entries
  | [], key, entries => if takesKeys then insertNew key value entries else none
  | first :: path, key, entries =>
    match entries.lookup first with
    | none =>
      (assign true value path key []).map fun inner => entries ++ [(first, .table .dotted inner)]
    | some (.table .dotted inner) =>
      (assign true value path key inner).map fun inner =>
        replace first (.table .dotted inner) entries
    | some (.table .implied inner) =>
      (assign false value path key inner).map fun inner =>
        replace first (.table .implied inner) entries
    | some (.tables elements) =>
      (updateLast (assign false value path key) elements).map fun elements =>
        replace first (.tables elements) entries
    | some _ => none

end Entries

/-- The fields of a record, found by name or by position. A table has them under their names and an
array in their order; other keys and further items are of no consequence. A date or time has no
field at all. -/
def Value.field? : Value → Option (String → Nat → Option Value)
  | .table _ entries => some fun name _ => entries.lookup name
  | .array items => some fun _ position => items[position]?
  | .tables elements => some fun _ position => (elements[position]?).map (.table .header)
  | .datetime => some fun _ _ => none
  | _ => none

end BlockBuilder.Toml

/-!
# Configuration documents

A configuration document is a tree of tables. A `Datum` is a value in it: a text, a number, a
flag, a list, or a table of further values.

A table is written down in pieces, and each piece may be written once: `Origin` remembers how a
table came about, and `addTable?` and `addValue?` refuse a piece that was there before. A table
that is only implied, as the parent of another one, may still be stated; one that was stated, or
written in one piece between braces, may not be extended from outside.
-/

namespace AdaptiveRouting

/-- How a table came about. -/
inductive Origin where
  /-- By a header of its own. -/
  | stated
  /-- As a parent in the header of another table. -/
  | implied
  /-- By a dotted key. -/
  | dotted
  /-- As a value, between braces. -/
  | closed
deriving DecidableEq, Inhabited

/-- A value in a document. -/
inductive Datum where
  | text (value : String)
  | integer (value : Int)
  /-- A number with a fraction or an exponent, or one that is not finite. -/
  | number (value : Float)
  | flag (value : Bool)
  | list (items : List Datum)
  | table (origin : Origin) (entries : List (String × Datum))
deriving Inhabited

abbrev Entries : Type := List (String × Datum)

namespace Entries

/-- Replaces the value of a key. -/
def set (key : String) (value : Datum) : Entries → Entries
  | [] => []
  | (k, v) :: rest => if k = key then (k, value) :: rest else (k, v) :: set key value rest

def addNew? (entries : Entries) (key : String) (value : Datum) : Option Entries :=
  match entries.lookup key with
  | none => some (entries ++ [(key, value)])
  | some _ => none

def addTable? : List String → Entries → Option Entries
  | [], _ => none
  | [key], entries =>
    match entries.lookup key with
    | none => some (entries ++ [(key, .table .stated [])])
    | some (.table .implied inner) => some (entries.set key (.table .stated inner))
    | some _ => none
  | key :: next :: path, entries =>
    match entries.lookup key with
    | none =>
      (addTable? (next :: path) []).map fun inner => entries ++ [(key, .table .implied inner)]
    | some (.table .closed _) => none
    | some (.table origin inner) =>
      (addTable? (next :: path) inner).map fun inner => entries.set key (.table origin inner)
    | some _ => none

/-- Adds a value under a dotted key to a table of a given origin. The table that ends up holding
the value must owe itself to dotted keys. -/
def addBelow? (origin : Origin) (value : Datum) : List String → Entries → Option Entries
  | [], _ => none
  | [key], entries => if origin = .dotted then entries.addNew? key value else none
  | key :: next :: path, entries =>
    match entries.lookup key with
    | none =>
      (addBelow? .dotted value (next :: path) []).map fun inner =>
        entries ++ [(key, .table .dotted inner)]
    | some (.table .dotted inner) =>
      (addBelow? .dotted value (next :: path) inner).map fun inner =>
        entries.set key (.table .dotted inner)
    | some (.table .implied inner) =>
      (addBelow? .implied value (next :: path) inner).map fun inner =>
        entries.set key (.table .implied inner)
    | some _ => none

def addValue? (value : Datum) : List String → Entries → Option Entries
  | [key], entries => entries.addNew? key value
  | path, entries => addBelow? .stated value path entries

/-- Changes the entries of the table at the end of a path. -/
def modifyAt? (f : Entries → Option Entries) : List String → Entries → Option Entries
  | [], entries => f entries
  | key :: path, entries =>
    match entries.lookup key with
    | some (.table origin inner) =>
      (modifyAt? f path inner).map fun inner => entries.set key (.table origin inner)
    | _ => none

end Entries

end AdaptiveRouting

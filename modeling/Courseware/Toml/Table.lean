import Courseware.Json.Basic
import Courseware.Toml.Scalar

/-!
# TOML tables

A document is a table. Its statements give a value to a key, or name the table to which the following
keys belong. No table and no key is defined twice: a table that a header has defined is closed to dotted
keys and to other headers, one that dotted keys have made is closed to headers, and a table or an array
written as a value is closed to both.
-/

namespace Courseware.Toml

/-- How a table has come about: as a part of the path of another, by dotted keys, or by a header. -/
inductive Origin
  | path
  | dotted
  | header
deriving DecidableEq, Repr

/-- What a key stands for. -/
inductive Node
  | scalar (value : Scalar)
  | array (items : List Node)
  | table (origin : Origin) (entries : List (String × Node))
  /-- A table that is written as a value. -/
  | inlineTable (entries : List (String × Node))
  /-- The tables that headers add to an array, latest first. -/
  | tables (latestFirst : List (List (String × Node)))
deriving Repr, Inhabited

/-- The entries of a table. -/
abbrev Entries := List (String × Node)

namespace Entries

/-- The entries with a key bound anew. -/
def put (key : String) (node : Node) : Entries → Entries
  | [] => [(key, node)]
  | (first, old) :: rest =>
    if first = key then (key, node) :: rest else (first, old) :: put key node rest

/-- Give a value to a dotted key. Dotted keys may pass through tables that are only part of a path, and
through tables that dotted keys have made. -/
def assign? (node : Node) (entries : Entries) : List String → Option Entries
  | [] => none
  | [key] => if (entries.lookup key).isSome then none else some (put key node entries)
  | key :: rest =>
    match entries.lookup key with
    | none => do
      let inner ← assign? node [] rest
      some (put key (.table .dotted inner) entries)
    | some (.table .header _) => none
    | some (.table origin inner) => do
      let inner ← assign? node inner rest
      some (put key (.table origin inner) entries)
    | some _ => none

/-- Change the entries of the table at a path, which is made where it is missing. Of an array of tables
the last is meant. -/
def within? (change : Entries → Option Entries) (entries : Entries) :
    List String → Option Entries
  | [] => change entries
  | key :: rest =>
    match entries.lookup key with
    | none => do
      let inner ← within? change [] rest
      some (put key (.table .path inner) entries)
    | some (.table origin inner) => do
      let inner ← within? change inner rest
      some (put key (.table origin inner) entries)
    | some (.tables (last :: earlier)) => do
      let last ← within? change last rest
      some (put key (.tables (last :: earlier)) entries)
    | some _ => none

/-- Define a table by a header. -/
def openTable? (key : String) (entries : Entries) : Option Entries :=
  match entries.lookup key with
  | none => some (put key (.table .header []) entries)
  | some (.table .path inner) => some (put key (.table .header inner) entries)
  | some _ => none

/-- Add a table to an array of tables by a header. -/
def addTable? (key : String) (entries : Entries) : Option Entries :=
  match entries.lookup key with
  | none => some (put key (.tables [[]]) entries)
  | some (.tables earlier) => some (put key (.tables ([] :: earlier)) entries)
  | some _ => none

end Entries

mutual

/-- A node as data. A date is the table of a single hidden key. -/
def Node.toJson : Node → Json
  | .scalar (.string value) => .string value
  | .scalar (.integer value) => .int value
  | .scalar (.float _) => .float 0
  | .scalar (.bool value) => .bool value
  | .scalar (.dateTime text) => .object [("$date", .string text)]
  | .array items => .array (nodesToJson items)
  | .table _ entries | .inlineTable entries => .object (entriesToJson entries)
  | .tables latestFirst => .array (tablesToJson latestFirst).reverse

/-- Nodes as data. -/
def nodesToJson : List Node → List Json
  | [] => []
  | first :: rest => first.toJson :: nodesToJson rest

/-- Entries as data. -/
def entriesToJson : List (String × Node) → List (String × Json)
  | [] => []
  | (key, node) :: rest => (key, node.toJson) :: entriesToJson rest

/-- Tables as data. -/
def tablesToJson : List (List (String × Node)) → List Json
  | [] => []
  | first :: rest => .object (entriesToJson first) :: tablesToJson rest

end

end Courseware.Toml

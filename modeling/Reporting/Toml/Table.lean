import Reporting.Tree.Basic

/-!
Tables of TOML while a document is read. A table may come about on the way to another one, by a dotted
key, or by its own header; once it has had its header, or was made by dotted keys, it cannot have one.
-/

namespace Reporting.Toml

/-- How a table came about. -/
inductive Origin where
  /-- on the way to another header -/
  | implied
  /-- by a dotted key -/
  | dotted
  /-- by its header -/
  | headed
deriving DecidableEq, Repr

/-- What is under a name. -/
inductive Node where
  | value (t : Tree)
  | table (origin : Origin) (entries : List (String × Node))
  /-- the tables of an array, each with its entries; the last is the one under construction -/
  | tables (before : List (List (String × Node))) (last : List (String × Node))

/-- Entries by name. -/
abbrev Entries := List (String × Node)

namespace Entries

/-- Puts a node under a name, in place of one that is there. -/
def put (name : String) (node : Node) : Entries → Entries
  | [] => [(name, node)]
  | (other, held) :: rest =>
    if other = name then (other, node) :: rest else (other, held) :: put name node rest

/-- Changes the entries of the table at the end of a path of headers; tables that are not there yet are
implied. -/
def within? (change : Entries → Option Entries) : List String → Entries → Option Entries
  | [], entries => change entries
  | name :: path, entries =>
    match entries.lookup name with
    | none => (within? change path []).map fun inner => put name (.table .implied inner) entries
    | some (.table origin inner) =>
      (within? change path inner).map fun inner => put name (.table origin inner) entries
    | some (.tables before last) =>
      (within? change path last).map fun last => put name (.tables before last) entries
    | some (.value _) => none

/-- A header of a table: it is new, or so far was only implied. -/
def header? (name : String) (entries : Entries) : Option Entries :=
  match entries.lookup name with
  | none => some (put name (.table .headed []) entries)
  | some (.table .implied inner) => some (put name (.table .headed inner) entries)
  | _ => none

/-- A header of one more table of an array. -/
def arrayHeader? (name : String) (entries : Entries) : Option Entries :=
  match entries.lookup name with
  | none => some (put name (.tables [] []) entries)
  | some (.tables before last) => some (put name (.tables (before ++ [last]) []) entries)
  | _ => none

/-- A value under a dotted key. The tables on the way are made by dotted keys alone, and the name must be
new. -/
def assign? (value : Tree) : List String → Entries → Option Entries
  | [], _ => none
  | [name], entries =>
    match entries.lookup name with
    | none => some (put name (.value value) entries)
    | some _ => none
  | name :: path, entries =>
    match entries.lookup name with
    | none => (assign? value path []).map fun inner => put name (.table .dotted inner) entries
    | some (.table .dotted inner) =>
      (assign? value path inner).map fun inner => put name (.table .dotted inner) entries
    | some (.table .implied inner) =>
      match path with
      | [_] => none
      | _ => (assign? value path inner).map fun inner => put name (.table .implied inner) entries
    | some (.tables before last) =>
      match path with
      | [_] => none
      | _ => (assign? value path last).map fun last => put name (.tables before last) entries
    | _ => none

end Entries

mutual

/-- The finished tree of a node. -/
def Node.tree : Node → Tree
  | .value t => t
  | .table _ entries => .table (Node.entriesTree entries)
  | .tables before last => .list (Node.tablesTree before ++ [.table (Node.entriesTree last)])

def Node.entriesTree : List (String × Node) → List (String × Tree)
  | [] => []
  | (name, node) :: rest => (name, node.tree) :: Node.entriesTree rest

def Node.tablesTree : List (List (String × Node)) → List Tree
  | [] => []
  | entries :: rest => .table (Node.entriesTree entries) :: Node.tablesTree rest

end

end Reporting.Toml

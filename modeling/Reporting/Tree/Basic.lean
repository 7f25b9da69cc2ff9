import Reporting.Value

/-!
Trees of tables, lists and plain values: what a data file holds, whatever its syntax. The functions here
read typed things out of trees; a tree that does not have the shape asked for gives nothing.

A record may be written as a table with its fields by name, or as a list with its fields in order. A choice
among names may be written as the name, or as a table with nothing under the name.
-/

namespace Reporting

/-- The syntaxes of data files. They differ in how strictly lists and choices are read. -/
inductive Dialect where
  | json
  | toml
deriving DecidableEq, Repr

/-- The contents of a data file. -/
inductive Tree where
  | null
  | bool (b : Bool)
  | integer (i : Int)
  | float (x : Float)
  | string (s : String)
  | list (items : List Tree)
  | table (entries : List (String × Tree))
deriving Inhabited

namespace Tree

def entries? : Tree → Option (List (String × Tree))
  | table entries => some entries
  | _ => none

def items? : Tree → Option (List Tree)
  | list items => some items
  | _ => none

def string? : Tree → Option String
  | string s => some s
  | _ => none

def bool? : Tree → Option Bool
  | bool b => some b
  | _ => none

/-- A count: a whole number that is not negative and fits into 64 bits. -/
def count? : Tree → Option Nat
  | integer i => if 0 ≤ i ∧ i < UInt64.size then some i.toNat else none
  | _ => none

/-- A list of things of one kind. -/
def listOf? {α : Type} (read : Tree → Option α) (t : Tree) : Option (List α) :=
  t.items?.bind fun items => items.mapM read

/-- A table of things of one kind. -/
def tableOf? {α : Type} (read : Tree → Option α) (t : Tree) : Option (List (String × α)) :=
  t.entries?.bind fun entries => entries.mapM fun (name, t) => (read t).map fun a => (name, a)

/-- Nothing, as it may stand beside the name of a choice: null in JSON, which TOML does not have, and there
an empty list or table. -/
def isNothing : Dialect → Tree → Bool
  | .json, null => true
  | .toml, list [] => true
  | .toml, table [] => true
  | _, _ => false

/-- The name of a choice. -/
def choice? (d : Dialect) : Tree → Option String
  | string s => some s
  | table [(name, content)] => if isNothing d content then some name else none
  | _ => none

/-- A record with the fields as a table. A list may end early, and in TOML it may go on after the last
field. -/
def record? (d : Dialect) (fields : List String) : Tree → Option Tree
  | table entries => some (table entries)
  | list items =>
    if d = .toml ∨ items.length ≤ fields.length then some (table (fields.zip items)) else none
  | _ => none

/-- The tree under a name of a table. -/
def get? (t : Tree) (name : String) : Option Tree :=
  match t with
  | table entries => entries.lookup name
  | _ => none

/-- What has to be under the name. -/
def required? {α : Type} (t : Tree) (name : String) (read : Tree → Option α) : Option α :=
  (t.get? name).bind read

/-- What is under the name, or the default if there is nothing. -/
def defaulted? {α : Type} (t : Tree) (name : String) (default : α) (read : Tree → Option α) : Option α :=
  match t.get? name with
  | some found => read found
  | none => some default

/-- What may be under the name; null is nothing. -/
def optional? {α : Type} (t : Tree) (name : String) (read : Tree → Option α) : Option (Option α) :=
  match t.get? name with
  | none => some none
  | some null => some none
  | some found => (read found).map some

/-- A cell. Integers of more than 64 bits are read as numbers with a point. -/
def value? : Tree → Option Value
  | null => some .null
  | bool b => some (.bool b)
  | integer i =>
    if Decimal.fitsInt64 i then some (.int (Int64.ofInt i)) else some (.float (Float.ofInt i))
  | float x => some (.float x)
  | string s => some (Value.ofString s)
  | _ => none

end Tree
end Reporting

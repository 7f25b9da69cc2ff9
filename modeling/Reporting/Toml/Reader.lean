import Reporting.Toml.Scalar
import Reporting.Toml.Table

/-!
TOML documents. Reading either yields the tree of the whole document or fails.
-/

namespace Reporting.Toml

/-- Spaces, line ends and comments, as they may stand between the items of an array. -/
def skipLines : Nat → List Char → Option (List Char)
  | 0, s => some s
  | n + 1, s =>
    match skipSpaces s with
    | '#' :: rest =>
      match rest.dropWhile isShown with
      | [] => some []
      | rest => (lineEnd? rest).bind (skipLines n)
    | s =>
      match lineEnd? s with
      | some rest => skipLines n rest
      | none => some s

mutual

/-- A value. Arrays and inline tables nest to the depth given; the fuel bounds the number of steps. -/
def value? (fuel depth : Nat) (s : List Char) : Option (Tree × List Char) :=
  match fuel with
  | 0 => none
  | fuel + 1 =>
    match s with
    | '"' :: _ => (string? s).map fun (text, rest) => (.string text, rest)
    | '\'' :: _ => (string? s).map fun (text, rest) => (.string text, rest)
    | '[' :: rest =>
      match depth with
      | 0 => none
      | depth + 1 => items? fuel depth [] rest
    | '\x7b' :: rest =>
      match depth with
      | 0 => none
      | depth + 1 =>
        match skipSpaces rest with
        | '\x7d' :: rest => some (.table [], rest)
        | rest => pairs? fuel depth [] rest
    | _ => plain? s

/-- The items of an array up to its end; those so far are given last first. -/
def items? (fuel depth : Nat) (items : List Tree) (s : List Char) : Option (Tree × List Char) :=
  match fuel with
  | 0 => none
  | fuel + 1 =>
    match skipLines s.length s with
    | none => none
    | some (']' :: rest) => some (.list items.reverse, rest)
    | some s =>
      match value? fuel depth s with
      | none => none
      | some (item, rest) =>
        match skipLines rest.length rest with
        | some (',' :: rest) => items? fuel depth (item :: items) rest
        | some (']' :: rest) => some (.list (item :: items).reverse, rest)
        | _ => none

/-- The pairs of an inline table up to its end. -/
def pairs? (fuel depth : Nat) (entries : Entries) (s : List Char) : Option (Tree × List Char) :=
  match fuel with
  | 0 => none
  | fuel + 1 =>
    match key? s with
    | some (path, '=' :: rest) =>
      match value? fuel depth (skipSpaces rest) with
      | none => none
      | some (value, rest) =>
        match Entries.assign? value path entries with
        | none => none
        | some entries =>
          match skipSpaces rest with
          | ',' :: rest => pairs? fuel depth entries rest
          | '\x7d' :: rest => some (.table (Node.entriesTree entries), rest)
          | _ => none
    | _ => none

end

/-- A document so far: its entries, and the path of the last header. -/
structure Document where
  entries : Entries
  current : List String

/-- A header in brackets, single or double. -/
def header? (d : Document) (s : List Char) : Option (Document × List Char) :=
  match s with
  | '[' :: '[' :: rest =>
    match key? rest with
    | some (path, ']' :: ']' :: rest) =>
      (Entries.within? (Entries.arrayHeader? (path.getLast?.getD "")) path.dropLast d.entries).map fun entries =>
        (⟨entries, path⟩, rest)
    | _ => none
  | '[' :: rest =>
    match key? rest with
    | some (path, ']' :: rest) =>
      (Entries.within? (Entries.header? (path.getLast?.getD "")) path.dropLast d.entries).map fun entries =>
        (⟨entries, path⟩, rest)
    | _ => none
  | _ => none

/-- A key and its value. -/
def assignment? (d : Document) (s : List Char) : Option (Document × List Char) :=
  match key? s with
  | some (path, '=' :: rest) =>
    match value? (2 * rest.length + 2) 79 (skipSpaces rest) with
    | some (value, rest) =>
      (Entries.within? (Entries.assign? value path) d.current d.entries).map fun entries =>
        ({ d with entries }, rest)
    | none => none
  | _ => none

/-- The statements of a document, one a line, in at most so many lines. -/
def statements? : Nat → Document → List Char → Option Document
  | 0, d, s => if s.isEmpty then some d else none
  | n + 1, d, s =>
    match skipSpaces s with
    | [] => some d
    | '[' :: rest =>
      match header? d ('[' :: rest) with
      | some (d, rest) => (endOfStatement? rest).bind (statements? n d)
      | none => none
    | s =>
      match endOfStatement? s with
      | some rest => statements? n d rest
      | none =>
        match assignment? d s with
        | some (d, rest) => (endOfStatement? rest).bind (statements? n d)
        | none => none

/-- The tree of a document. A byte order mark in front is passed over. -/
def read? (text : String) : Option Tree :=
  let s := match text.toList with | '\ufeff' :: rest => rest | s => s
  (statements? (s.length + 1) ⟨[], []⟩ s).map fun d => .table (Node.entriesTree d.entries)

end Reporting.Toml

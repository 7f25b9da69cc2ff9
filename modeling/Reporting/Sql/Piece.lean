import Reporting.Source.Error

/-!
The text of a statement in pieces, and what is wrong with a text before it is asked what it means. A text
is read from left to right, part by part, and the first fault is the one that is told.
-/

namespace Reporting.Sql

/-- An identifier in quotes; a quote inside is doubled. -/
def quoted (name : String) : String :=
  String.ofList ('"' :: (name.toList.flatMap (fun c => if c = '"' then ['"', '"'] else [c]) ++ ['"']))

/-- A column of one of the tables of a statement. -/
structure Column where
  table : Nat
  name : String
deriving DecidableEq, Repr

/-- The name that a statement gives to its table of the number. -/
def tableAlias (table : Nat) : String :=
  "t" ++ toString table

def Column.text (c : Column) : String :=
  tableAlias c.table ++ "." ++ quoted c.name

/-- A piece of the text of a statement. -/
inductive Piece where
  /-- key words, marks and the names that a statement gives to its tables -/
  | fixed (text : String)
  | name (name : String)
  | column (column : Column)
  /-- the place of an operand -/
  | operand
deriving DecidableEq, Repr

namespace Piece

def text : Piece → String
  | fixed s => s
  | name n => quoted n
  | column c => c.text
  | operand => "?"

def size (p : Piece) : Nat :=
  p.text.utf8ByteSize

/-- The text of pieces one after another. -/
def textOf (pieces : List Piece) : String :=
  String.join (pieces.map text)

/-- Pieces with commas between. -/
def commas (pieces : List Piece) : List Piece :=
  pieces.intersperse (fixed ", ")

/-- Each piece with its place in bytes; the first is at the given one. -/
def placed : Nat → List Piece → List (Nat × Piece)
  | _, [] => []
  | place, p :: rest => (place, p) :: placed (place + p.size) rest

/-- The columns among the pieces with their places. -/
def placedColumns (place : Nat) (pieces : List Piece) : List (Nat × Column) :=
  (placed place pieces).filterMap fun (place, p) =>
    match p with
    | column c => some (place, c)
    | _ => none

/-- The number of bytes that the pieces take. -/
def total (pieces : List Piece) : Nat :=
  pieces.foldl (fun n p => n + p.size) 0

end Piece

/-- The failure over a place of a text. -/
def failureAt (what text : String) (place : Nat) : SourceError :=
  .database (what ++ " in " ++ text ++ " at offset " ++ toString place)

/-- What is wrong once a part of a text has been read. -/
inductive Fault where
  | whole (what : String)
  /-- wrong at the place directly after the part -/
  | next (what : String)
deriving DecidableEq, Repr

/-- A part of a text, and what is wrong after it. -/
structure Part where
  pieces : List Piece
  fault : Option Fault

/-- How many operands a statement may have. -/
def maxOperands : Nat := 32766

/-- A text ends at a zero character: of a quoted name that has one, what comes before it is left open. -/
def openQuote? (name : String) : Option String :=
  if name.toList.any (·.toNat == 0) then some (String.ofList ((quoted name).toList.takeWhile (·.toNat != 0)))
  else none

/-- The failure over a name that starts at the place. -/
def nameFailure? (text name : String) (place : Nat) : Option SourceError :=
  (openQuote? name).map fun read => failureAt ("unrecognized token: \"" ++ read ++ "\"") text place

/-- Reads pieces from a place on, after so many operands. The result is the first failure, or the place and
the number of operands afterwards. -/
def readPieces (text : String) : Nat → Nat → List Piece → Except SourceError (Nat × Nat)
  | place, operands, [] => .ok (place, operands)
  | place, operands, p :: rest =>
    let failure? :=
      match p with
      | .fixed _ => none
      | .name n => nameFailure? text n place
      | .column c => nameFailure? text c.name (place + (tableAlias c.table).utf8ByteSize + 1)
      | .operand =>
        if operands < maxOperands then none else some (failureAt "too many SQL variables" text place)
    match failure? with
    | some e => .error e
    | none => readPieces text (place + p.size) (if p = .operand then operands + 1 else operands) rest

/-- The first failure of a text in parts, from a place on. -/
def readParts (text : String) : Nat → Nat → List Part → Except SourceError Unit
  | _, _, [] => .ok ()
  | place, operands, part :: rest =>
    match readPieces text place operands part.pieces with
    | .error e => .error e
    | .ok (place, operands) =>
      match part.fault with
      | some (.whole what) => .error (.database what)
      | some (.next what) => .error (failureAt what text place)
      | none => readParts text place operands rest

/-- The pieces of all parts. -/
def Part.all (parts : List Part) : List Piece :=
  parts.flatMap Part.pieces

/-- Reads the text of the parts. -/
def Part.read (parts : List Part) : Except SourceError Unit :=
  readParts (Piece.textOf (Part.all parts)) 0 0 parts

end Reporting.Sql

/-!
Records of delimited text. A cell that begins with a quote goes on to the next single quote, and two
quotes inside stand for one; elsewhere quotes are ordinary. A record ends with its line, empty lines are
passed over, and what is open at the end of the text is closed there.
-/

namespace Reporting.Csv

def quote : UInt8 := 34
def newline : UInt8 := 10
def carriageReturn : UInt8 := 13

/-- Where the reading of a text stands. -/
structure Position where
  byte : Nat
  line : Nat
  record : Nat
deriving DecidableEq, Repr

/-- The cells of a record, and the position at which its reading began. -/
structure RawRecord where
  start : Position
  cells : List (List UInt8)
deriving DecidableEq, Repr

/-- What the next byte is part of. -/
inductive Place where
  | recordStart
  | cellStart
  | plain
  | quoted
  /-- after a quote in a quoted cell -/
  | afterQuote
  /-- after a record that a carriage return ended: a newline belongs to it -/
  | afterReturn
deriving DecidableEq, Repr

/-- The state of reading; the cell, the cells and the records so far are held last first. -/
structure Reading where
  place : Place
  position : Position
  start : Position
  cell : List UInt8
  cells : List (List UInt8)
  records : List RawRecord

namespace Reading

def initial (byte : Nat) : Reading :=
  ⟨.recordStart, ⟨byte, 1, 0⟩, ⟨0, 1, 0⟩, [], [], []⟩

/-- Counts a byte as read. -/
def count (r : Reading) (b : UInt8) : Reading :=
  { r with position :=
      { r.position with
        byte := r.position.byte + 1
        line := if b = newline then r.position.line + 1 else r.position.line } }

def push (r : Reading) (b : UInt8) (place : Place) : Reading :=
  { r with cell := b :: r.cell, place }

def closeCell (r : Reading) (place : Place) : Reading :=
  { r with cell := [], cells := r.cell.reverse :: r.cells, place }

/-- Closes the last cell and the record; the next one begins here. -/
def closeRecord (r : Reading) (place : Place) : Reading :=
  let r := r.closeCell place
  let position := { r.position with record := r.position.record + 1 }
  { r with
    position
    start := position
    cells := []
    records := ⟨r.start, r.cells.reverse⟩ :: r.records }

def isEnd (b : UInt8) : Bool :=
  b == newline || b == carriageReturn

/-- The place after a record that the byte ends. -/
def afterEnd (b : UInt8) : Place :=
  if b = carriageReturn then .afterReturn else .recordStart

/-- A byte outside of quotes and not at the beginning of a cell. -/
def plainByte (delimiter b : UInt8) (r : Reading) : Reading :=
  if b = delimiter then r.closeCell .cellStart
  else if isEnd b then r.closeRecord (afterEnd b)
  else r.push b .plain

/-- A byte at the beginning of a cell. -/
def firstByte (delimiter b : UInt8) (r : Reading) : Reading :=
  if b = quote then { r with place := .quoted } else plainByte delimiter b r

/-- A byte at the beginning of a record. -/
def startByte (delimiter b : UInt8) (r : Reading) : Reading :=
  if isEnd b then { r with place := .recordStart } else firstByte delimiter b r

/-- Reads a byte. -/
def step (delimiter : UInt8) (r : Reading) (b : UInt8) : Reading :=
  let r := r.count b
  match r.place with
  | .recordStart => startByte delimiter b r
  | .cellStart => firstByte delimiter b r
  | .plain => plainByte delimiter b r
  | .quoted => if b = quote then { r with place := .afterQuote } else r.push b .quoted
  | .afterQuote => if b = quote then r.push b .quoted else plainByte delimiter b r
  | .afterReturn => if b = newline then { r with place := .recordStart } else startByte delimiter b r

/-- Closes what is open at the end. -/
def finish (r : Reading) : List RawRecord :=
  match r.place with
  | .recordStart => r.records.reverse
  | .afterReturn => r.records.reverse
  | _ => (r.closeRecord .recordStart).records.reverse

end Reading

/-- The records of a text; a byte order mark in front is passed over. -/
def records (delimiter : UInt8) : List UInt8 → List RawRecord
  | 0xEF :: 0xBB :: 0xBF :: bytes => (bytes.foldl (Reading.step delimiter) (Reading.initial 3)).finish
  | bytes => (bytes.foldl (Reading.step delimiter) (Reading.initial 0)).finish

end Reporting.Csv

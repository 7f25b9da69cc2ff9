import Reporting.Sql.Image.Record

/-!
The pages of a database's file, and the trees of rows that they hold. A leaf has rows in the order of their
numbers; a branch has the pages of smaller trees in that order. The end of a long record is on pages of its
own, each of which names the next.
-/

namespace Reporting.Sql.Image

/-- A file in pages of one size. -/
structure Pages where
  bytes : ByteArray
  size : Nat
  /-- the bytes of a page that are for content -/
  usable : Nat

/-- The bytes in front of the first page's content. -/
def headLength : Nat := 100

/-- The number of pages on the longest way down a tree. -/
def maxDepth : Nat := 20

namespace Pages

def slice (p : Pages) (start length : Nat) : List UInt8 :=
  (p.bytes.extract start (start + length)).toList

/-- The natural number at a place. -/
def naturalAt (p : Pages) (start length : Nat) : Nat :=
  natural (p.slice start length)

/-- The number of pages. -/
def count (p : Pages) : Nat :=
  p.bytes.size / p.size

/-- Where a page starts; the first one has number one. -/
def start (p : Pages) (page : Nat) : Nat :=
  (page - 1) * p.size

/-- Where the content of a page starts. -/
def content (p : Pages) (page : Nat) : Nat :=
  p.start page + if page = 1 then headLength else 0

/-- Where the entries of a page start; a head of some length comes before the list of their places. -/
def entries (p : Pages) (page head : Nat) : List Nat :=
  let start := p.content page
  (List.range (p.naturalAt (start + 3) 2)).map fun i => p.start page + p.naturalAt (start + head + 2 * i) 2

/-- How many bytes of a record are on the page of its row. -/
def heldLength (p : Pages) (length : Nat) : Nat :=
  let most := p.usable - 35
  if length ≤ most then length
  else
    let least := (p.usable - 12) * 32 / 255 - 23
    let fitting := least + (length - least) % (p.usable - 4)
    if fitting ≤ most then fitting else least

/-- The bytes that are left of a record, from a page on; there may be so many pages. -/
def chain? (p : Pages) (page left : Nat) : Nat → Option (List UInt8)
  | 0 => none
  | pages + 1 =>
    let taken := min left (p.usable - 4)
    let bytes := p.slice (p.start page + 4) taken
    if taken = left then some bytes
    else (p.chain? (p.naturalAt (p.start page) 4) (left - taken) pages).map (bytes ++ ·)

/-- The bytes of a record. -/
def recordBytes? (p : Pages) (start length : Nat) : Option (List UInt8) :=
  let held := p.heldLength length
  let bytes := p.slice start held
  if held = length then some bytes
  else (p.chain? (p.naturalAt (start + held) 4) (length - held) p.count).map (bytes ++ ·)

/-- The row at a place: its number and its cells. -/
def row? (p : Pages) (start : Nat) : Option (Int × List Cell) := do
  let bytes := p.slice start 18
  let (length, rest) ← variableNumber? bytes
  let (number, rest) ← variableNumber? rest
  let record ← p.recordBytes? (start + (bytes.length - rest.length)) length
  some ((Int64.ofNat number).toInt, ← record? record)

/-- The rows of the tree at a page, at most so deep. -/
def rows? (p : Pages) : Nat → Nat → Option (List (Int × List Cell))
  | 0, _ => none
  | depth + 1, page =>
    match p.slice (p.content page) 1 with
    | [13] => (p.entries page 8).mapM p.row?
    | [5] =>
      let first := (p.entries page 12).map fun start => p.naturalAt start 4
      let last := p.naturalAt (p.content page + 8) 4
      ((first ++ [last]).mapM (p.rows? depth)).map List.flatten
    | _ => none

end Pages
end Reporting.Sql.Image

import Reporting.Sql.Cell
import Reporting.Text.Utf8

/-!
Records as the file of a database holds them: numbers of one to nine bytes, a head that says of which kind
and length each cell is, and the cells one after another.
-/

namespace Reporting.Sql.Image

/-- The number that bytes write, the highest first. -/
def natural (bytes : List UInt8) : Nat :=
  bytes.foldl (fun n b => 256 * n + b.toNat) 0

/-- The same with the highest bit as a sign. -/
def signed (bytes : List UInt8) : Int :=
  let n := natural bytes
  let range := Nat.pow 2 (8 * bytes.length)
  if 2 * n < range then n else n - (range : Int)

/-- Goes on with a number of variable length: of the next bytes, as many as are left may say with their
highest bit that another one follows, and the byte after these counts whole. -/
def variableFrom (value : Nat) : Nat → List UInt8 → Option (Nat × List UInt8)
  | _, [] => none
  | 0, b :: rest => some (256 * value + b.toNat, rest)
  | left + 1, b :: rest =>
    if b < 128 then some (128 * value + b.toNat, rest)
    else variableFrom (128 * value + (b.toNat - 128)) left rest

/-- The number of one to nine bytes at the beginning, and what follows it. -/
def variableNumber? (bytes : List UInt8) : Option (Nat × List UInt8) :=
  variableFrom 0 8 bytes

/-- A number takes at least one byte. -/
theorem length_variableFrom {value left n : Nat} {bytes rest : List UInt8}
    (h : variableFrom value left bytes = some (n, rest)) : rest.length < bytes.length := by
  induction bytes generalizing value left with
  | nil => simp [variableFrom] at h
  | cons b more ih =>
    cases left with
    | zero =>
      simp only [variableFrom, Option.some.injEq, Prod.mk.injEq] at h
      simp [← h.2]
    | succ left =>
      simp only [variableFrom] at h
      split at h
      · simp only [Option.some.injEq, Prod.mk.injEq] at h
        simp [← h.2]
      · have := ih h
        simp only [List.length_cons]
        omega

/-- The numbers that fill the bytes. -/
def codes? (bytes : List UInt8) : Option (List Nat) :=
  match bytes with
  | [] => some []
  | b :: more =>
    match _read : variableFrom 0 8 (b :: more) with
    | some (code, rest) => (codes? rest).map (code :: ·)
    | none => none
termination_by bytes.length
decreasing_by exact length_variableFrom _read

/-- The number of bytes that a code says a cell takes. -/
def width (code : Nat) : Nat :=
  match code with
  | 5 => 6
  | 6 => 8
  | 7 => 8
  | code => if code < 5 then code else if code < 12 then 0 else (code - 12) / 2

/-- A cell of the code. -/
def cellOf (code : Nat) (bytes : List UInt8) : Cell :=
  match code with
  | 0 => .null
  | 7 => .real (Float.ofBits (natural bytes).toUInt64)
  | 8 => .integer 0
  | 9 => .integer 1
  | code => if code < 7 then .integer (Int64.ofInt (signed bytes)) else .text (String.ofList (Text.decodeLossy bytes))

/-- The cells of the codes, one after another. -/
def cellsOf : List Nat → List UInt8 → List Cell
  | [], _ => []
  | code :: rest, bytes => cellOf code (bytes.take (width code)) :: cellsOf rest (bytes.drop (width code))

/-- The cells of a record. -/
def record? (bytes : List UInt8) : Option (List Cell) := do
  let (head, rest) ← variableNumber? bytes
  let codes ← codes? (rest.take (head - (bytes.length - rest.length)))
  some (cellsOf codes (bytes.drop head))

end Reporting.Sql.Image

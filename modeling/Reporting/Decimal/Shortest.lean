/-!
The fewest decimal digits that identify a binary fraction. A finite number stands for an interval of
reals, those that round to it; `shortest` walks decimal grids from coarse to fine and stops at the
first that has a point in the interval. All comparisons are exact, on naturals.
-/

namespace Reporting.Decimal

/-- A finite magnitude `mantissa * 2 ^ exponent`. -/
structure Binary where
  mantissa : Nat
  exponent : Int
  /-- The gap to the magnitude below is half of the gap to the one above. -/
  narrowBelow : Bool
deriving DecidableEq, Repr

/-- The magnitude held by the bits of a finite number; the sign bit is not looked at. -/
def Binary.ofBits (bits : UInt64) : Binary :=
  let biased := ((bits >>> 52) &&& 0x7FF).toNat
  let fraction := (bits &&& 0xFFFFFFFFFFFFF).toNat
  if biased = 0 then ⟨fraction, -1074, false⟩
  else ⟨Nat.pow 2 52 + fraction, (biased : Int) - 1075, fraction = 0 ∧ 1 < biased⟩

/-- A decimal magnitude `digits * 10 ^ exponent`. -/
structure Scaled where
  digits : Nat
  exponent : Int
deriving DecidableEq, Repr

/-- Which of two equally near decimals is taken. -/
inductive Tie where
  | toEven
  | up
deriving DecidableEq, Repr

/-- Compares `digits * 10 ^ i` with `mantissa * 2 ^ j`. -/
def compareScaled (digits : Nat) (i : Int) (mantissa : Nat) (j : Int) : Ordering :=
  compare (digits * Nat.pow 10 i.toNat * Nat.pow 2 (-j).toNat)
    (mantissa * Nat.pow 2 j.toNat * Nat.pow 10 (-i).toNat)

/-- The decimal lies among the reals that round to the magnitude, a half going to the even mantissa. -/
def Binary.readsBack (x : Binary) (d : Scaled) : Bool :=
  let low := if x.narrowBelow then 4 * x.mantissa - 1 else 4 * x.mantissa - 2
  let high := 4 * x.mantissa + 2
  let endsIncluded := x.mantissa % 2 == 0
  let atLow := compareScaled d.digits d.exponent low (x.exponent - 2)
  let atHigh := compareScaled d.digits d.exponent high (x.exponent - 2)
  (atLow == .gt || (endsIncluded && atLow == .eq)) && (atHigh == .lt || (endsIncluded && atHigh == .eq))

/-- The integer part of the magnitude measured in units of `10 ^ grid`. -/
def Binary.floorAt (x : Binary) (grid : Int) : Nat :=
  (x.mantissa * Nat.pow 2 x.exponent.toNat * Nat.pow 10 (-grid).toNat)
    / (Nat.pow 2 (-x.exponent).toNat * Nat.pow 10 grid.toNat)

/-- Raises `k` until the magnitude is below `10 ^ k`, in at most the given number of steps. -/
def Binary.raiseScale (x : Binary) : Nat → Int → Int
  | 0, k => k
  | steps + 1, k =>
    if compareScaled 1 k x.mantissa x.exponent == .gt then k else x.raiseScale steps (k + 1)

/-- The least `k` with the magnitude below `10 ^ k`, from an estimate that is never too large. -/
def Binary.scale (x : Binary) : Int :=
  let binaryDigits : Int := (x.mantissa.log2 : Int) + x.exponent
  x.raiseScale 4 (Int.fdiv (binaryDigits * 1233) 4096 - 1)

/-- Of the two points of the grid around the magnitude, those that read back; the nearer of two. -/
def Binary.onGrid? (x : Binary) (tie : Tie) (grid : Int) : Option Scaled :=
  let below := x.floorAt grid
  let lower : Scaled := ⟨below, grid⟩
  let upper : Scaled := ⟨below + 1, grid⟩
  match x.readsBack lower, x.readsBack upper with
  | false, false => none
  | true, false => some lower
  | false, true => some upper
  | true, true =>
    match compareScaled (2 * below + 1) grid x.mantissa (x.exponent + 1) with
    | .lt => some upper
    | .gt => some lower
    | .eq =>
      match tie with
      | .up => some upper
      | .toEven => if below % 2 = 0 then some lower else some upper

/-- Tries grids with ever more digits, each one tenth as coarse as the one before. -/
def Binary.search (x : Binary) (tie : Tie) : Nat → Int → Option Scaled
  | 0, _ => none
  | more + 1, grid =>
    match x.onGrid? tie grid with
    | some d => some d
    | none => x.search tie more (grid - 1)

/-- Moves trailing zeros of the digits into the exponent, at most the given number of them. -/
def Scaled.strip : Nat → Scaled → Scaled
  | 0, d => d
  | n + 1, d => if d.digits % 10 = 0 then Scaled.strip n ⟨d.digits / 10, d.exponent + 1⟩ else d

/-- The magnitude itself as a decimal, with as many digits as that takes. -/
def Binary.exact (x : Binary) : Scaled :=
  ⟨x.mantissa * Nat.pow 2 x.exponent.toNat * Nat.pow 5 (-x.exponent).toNat,
    if x.exponent < 0 then x.exponent else 0⟩

/-- The decimal with the fewest digits that reads back, of those the nearest. Zero has no digits. -/
def Binary.shortest (x : Binary) (tie : Tie) : Scaled :=
  if x.mantissa = 0 then ⟨0, 0⟩
  else
    match x.search tie 17 (x.scale - 1) with
    | some d => d.strip 20
    | none => x.exact

end Reporting.Decimal

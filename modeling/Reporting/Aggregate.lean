import Reporting.Path
import Reporting.Text.Lower
import Reporting.Value

/-!
Aggregates: one number out of the cells of many records.
-/

namespace Reporting

/-- How cells are brought together. -/
inductive Method where
  | sum
  | count
  | avg
  | max
  | min
deriving DecidableEq, Repr, Inhabited

namespace Method

/-- The sum from left to right. It begins with minus zero, which adds nothing to any number. -/
def total (numbers : List Float) : Float :=
  numbers.foldl (· + ·) (-0.0)

/-- The larger of two numbers; what is no number is passed over. -/
def larger (x y : Float) : Float :=
  if x.isNaN then y else if y.isNaN then x else if x < y then y else x

/-- The smaller of two numbers; what is no number is passed over. -/
def smaller (x y : Float) : Float :=
  if x.isNaN then y else if y.isNaN then x else if y < x then y else x

/-- Positive infinity. -/
def infinity : Float := 1 / 0

/-- The aggregate of at least one number. -/
def ofNumbers : Method → List Float → Float
  | sum, numbers => total numbers
  | avg, numbers => total numbers / Float.ofNat numbers.length
  | max, numbers => numbers.foldl larger (-infinity)
  | min, numbers => numbers.foldl smaller infinity
  | count, numbers => Float.ofNat numbers.length

/-- The aggregate of the cells. All cells that are not missing are counted; the other methods take those
that are numbers and give nothing where there are none. -/
def compute? (method : Method) (cells : List Value) : Option Float :=
  let present := cells.filter fun v => !v.isNull
  match method with
  | count => some (Float.ofNat present.length)
  | method =>
    match present.filterMap Value.toFloat? with
    | [] => none
    | numbers => some (method.ofNumbers numbers)

def name : Method → String
  | sum => "sum"
  | count => "count"
  | avg => "avg"
  | max => "max"
  | min => "min"

/-- The name as labels show it. -/
def label : Method → String
  | sum => "Sum"
  | count => "Count"
  | avg => "Avg"
  | max => "Max"
  | min => "Min"

/-- The name of the method among the functions of a database. -/
def sqlName : Method → String
  | sum => "SUM"
  | count => "COUNT"
  | avg => "AVG"
  | max => "MAX"
  | min => "MIN"

/-- The method with the name, in any case. -/
def ofName? (s : String) : Option Method :=
  match Text.lower s with
  | "sum" => some sum
  | "count" => some count
  | "avg" => some avg
  | "average" => some avg
  | "max" => some max
  | "min" => some min
  | _ => none

end Method

/-- A method for the cells at a path. -/
structure Aggregation where
  method : Method
  field : String
deriving DecidableEq, Repr

/-- The name of the result in the answers of a database. -/
def Aggregation.resultName (a : Aggregation) : String :=
  Path.append a.field a.method.name

end Reporting

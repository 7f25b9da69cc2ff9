/-!
Text in columns: blanks fill up to a width, which counts characters.
-/

namespace Reporting.Text

/-- The text with blanks after it, up to a width. -/
def padRight (width : Nat) (s : String) : String :=
  String.ofList (s.toList ++ List.replicate (width - s.length) ' ')

/-- A line of dashes. -/
def dashes (width : Nat) : String :=
  String.ofList (List.replicate width '-')

/-- The lines, each with its end. -/
def lines (ls : List String) : String :=
  String.join (ls.map (· ++ "\n"))

end Reporting.Text

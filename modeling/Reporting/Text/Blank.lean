/-!
White space as the Unicode property of that name has it, and trimming by it.
-/

namespace Reporting.Text

/-- The characters with the property White_Space: tab to carriage return, the spaces of Latin-1, of
general punctuation and of the ideographic block, and the two separators. -/
def isBlank (c : Char) : Bool :=
  let n := c.toNat
  (0x9 ≤ n && n ≤ 0xD) || n == 0x20 || n == 0x85 || n == 0xA0 || n == 0x1680 ||
    (0x2000 ≤ n && n ≤ 0x200A) || n == 0x2028 || n == 0x2029 || n == 0x202F || n == 0x205F || n == 0x3000

/-- Drops the blanks in front. -/
def skipBlanks (s : List Char) : List Char :=
  s.dropWhile isBlank

/-- Drops the blanks on both sides. -/
def trimChars (s : List Char) : List Char :=
  (skipBlanks (skipBlanks s).reverse).reverse

/-- Drops the blanks on both sides. -/
def trim (s : String) : String :=
  String.ofList (trimChars s.toList)

end Reporting.Text

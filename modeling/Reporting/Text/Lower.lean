/-!
Lower case, as far as it can lead to a word of unaccented Latin letters.
-/

namespace Reporting.Text

/-- The lower case of a Latin capital; the Kelvin sign is a capital K too. No other character has a
lower case among the unaccented letters. -/
def lowerChar (c : Char) : Char :=
  if c = '\u212a' then 'k' else c.toLower

/-- Lower case of the unaccented letters, for comparison with a word of such letters. -/
def lower (s : String) : String :=
  String.ofList (s.toList.map lowerChar)

end Reporting.Text

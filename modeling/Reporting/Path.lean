/-!
Field paths. A path names a field, or a field reached over relations, with two underscores after each
relation: `client__contact__name`.
-/

namespace Reporting.Path

/-- The parts between pairs of underscores; pairs are taken from the left and do not overlap. The
second argument holds the characters of the current part, last first. -/
def splitChars : List Char → List Char → List (List Char)
  | '_' :: '_' :: rest, part => part.reverse :: splitChars rest []
  | c :: rest, part => splitChars rest (c :: part)
  | [], part => [part.reverse]

/-- The names along a path; there is at least one. -/
def parts (path : String) : List String :=
  (splitChars path.toList []).map String.ofList

/-- What stands before and after the last pair of underscores. -/
def splitLastChars? : List Char → Option (List Char × List Char)
  | [] => none
  | c :: rest =>
    match splitLastChars? rest with
    | some (before, after) => some (c :: before, after)
    | none =>
      match c, rest with
      | '_', '_' :: after => some ([], after)
      | _, _ => none

/-- What stands before and after the last pair of underscores. -/
def splitLast? (s : String) : Option (String × String) :=
  (splitLastChars? s.toList).map fun (before, after) => (String.ofList before, String.ofList after)

/-- The path that goes on from where the first one ends. -/
def append (path rest : String) : String :=
  path ++ "__" ++ rest

theorem toList_append (path rest : String) : (append path rest).toList = path.toList ++ '_' :: '_' :: rest.toList := by
  simp [append]

/-- The name before a final `_id`. -/
def withoutId? (name : String) : Option String :=
  let s := name.toList
  if s.drop (s.length - 3) = ['_', 'i', 'd'] then some (String.ofList (s.take (s.length - 3))) else none

end Reporting.Path

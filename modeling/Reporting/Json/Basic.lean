import Reporting.Text.Quoted

/-!
JSON documents and how they are written: on one line, or with every item on a line of its own.
-/

namespace Reporting

/-- A JSON document. -/
inductive Json where
  | null
  | bool (b : Bool)
  /-- a number as it is written -/
  | number (text : String)
  | string (s : String)
  | array (items : List Json)
  | object (members : List (String × Json))
deriving Inhabited

namespace Json

/-- A string, or null where there is none. -/
def ofString? : Option String → Json
  | some s => string s
  | none => null

def strings (items : List String) : Json :=
  array (items.map string)

mutual

/-- The document on one line, without blanks. -/
def compact : Json → String
  | null => "null"
  | bool b => if b then "true" else "false"
  | number text => text
  | string s => Text.jsonQuoted s
  | array items => "[" ++ String.intercalate "," (compactItems items) ++ "]"
  | object members => "\x7b" ++ String.intercalate "," (compactMembers members) ++ "\x7d"

def compactItems : List Json → List String
  | [] => []
  | item :: rest => item.compact :: compactItems rest

def compactMembers : List (String × Json) → List String
  | [] => []
  | (name, value) :: rest => (Text.jsonQuoted name ++ ":" ++ value.compact) :: compactMembers rest

end

/-- The beginning of a line at a depth. -/
def indent (depth : Nat) : String :=
  String.ofList (List.replicate (2 * depth) ' ')

/-- Items on lines of their own between brackets; nothing between the brackets if there are none. -/
def block (depth : Nat) (opening closing : String) (items : List String) : String :=
  if items.isEmpty then opening ++ closing
  else
    opening ++ "\n" ++ String.intercalate ",\n" (items.map fun item => indent (depth + 1) ++ item)
      ++ "\n" ++ indent depth ++ closing

mutual

/-- The document over several lines, from the second on indented by the depth. -/
def prettyAt (depth : Nat) : Json → String
  | array items => block depth "[" "]" (prettyItems (depth + 1) items)
  | object members => block depth "\x7b" "\x7d" (prettyMembers (depth + 1) members)
  | null => "null"
  | bool b => if b then "true" else "false"
  | number text => text
  | string s => Text.jsonQuoted s

def prettyItems (depth : Nat) : List Json → List String
  | [] => []
  | item :: rest => item.prettyAt depth :: prettyItems depth rest

def prettyMembers (depth : Nat) : List (String × Json) → List String
  | [] => []
  | (name, value) :: rest =>
    (Text.jsonQuoted name ++ ": " ++ value.prettyAt depth) :: prettyMembers depth rest

end

/-- The document over several lines. -/
def pretty (j : Json) : String :=
  j.prettyAt 0

end Json
end Reporting

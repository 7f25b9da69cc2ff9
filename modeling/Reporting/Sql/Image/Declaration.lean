import Reporting.Sql.Store

/-!
The declaration of a table: its text is read as far as names, types and the primary key go.
-/

namespace Reporting.Sql.Image

/-- A piece of a declaration. -/
inductive Token where
  | word (text : String)
  /-- a name in quotes -/
  | quoted (text : String)
  | mark (c : Char)
deriving DecidableEq, Repr

/-- The character that closes what the given one opens. -/
def closing? (c : Char) : Option Char :=
  if c = '[' then some ']' else if c = '"' ∨ c.toNat = 39 ∨ c.toNat = 96 then some c else none

/-- What stands before the closing character, and after it. Two of them inside stand for one. -/
def takeQuoted (close : Char) : List Char → List Char × List Char
  | [] => ([], [])
  | c :: rest =>
    if c = close then
      match rest with
      | d :: more =>
        if d = close ∧ close ≠ ']' then
          let (text, after) := takeQuoted close more
          (c :: text, after)
        else ([], rest)
      | [] => ([], [])
    else
      let (text, after) := takeQuoted close rest
      (c :: text, after)

/-- What follows a remark that a star and a slash end. -/
def afterRemark : List Char → List Char
  | '*' :: '/' :: rest => rest
  | _ :: rest => afterRemark rest
  | [] => []

def isWordChar (c : Char) : Bool :=
  c.isAlphanum || c = '_' || c = '$' || c = '.' || 128 ≤ c.toNat

/-- The pieces of a text; there may be so many. -/
def tokens : Nat → List Char → List Token
  | 0, _ => []
  | _, [] => []
  | left + 1, c :: rest =>
    match closing? c with
    | some close =>
      let (text, after) := takeQuoted close rest
      .quoted (String.ofList text) :: tokens left after
    | none =>
      if isWordChar c then
        .word (String.ofList (c :: rest.takeWhile isWordChar)) :: tokens left (rest.dropWhile isWordChar)
      else
        match c, rest with
        | '-', '-' :: rest => tokens left (rest.dropWhile (· ≠ '\n'))
        | '/', '*' :: rest => tokens left (afterRemark rest)
        | c, rest => if isSpace c then tokens left rest else .mark c :: tokens left rest

/-- The definitions between commas, up to the bracket that closes them. -/
def definitions (depth : Nat) (current : List Token) : List Token → List (List Token)
  | [] => [current.reverse]
  | .mark '(' :: rest => definitions (depth + 1) (.mark '(' :: current) rest
  | .mark ')' :: rest =>
    if depth = 0 then [current.reverse] else definitions (depth - 1) (.mark ')' :: current) rest
  | .mark ',' :: rest =>
    if depth = 0 then current.reverse :: definitions 0 [] rest
    else definitions depth (.mark ',' :: current) rest
  | t :: rest => definitions depth (t :: current) rest

/-- A piece that is one of the words. -/
def isWord (words : List String) : Token → Bool
  | .word text => words.contains text.toUpper
  | _ => false

def Token.name? : Token → Option String
  | .word text => some text
  | .quoted text => some text
  | .mark _ => none

/-- Words with which a rule on the whole table begins. -/
def tableRules : List String := ["CONSTRAINT", "PRIMARY", "UNIQUE", "CHECK", "FOREIGN"]

/-- Words that follow the type of a column. -/
def columnRules : List String :=
  ["CONSTRAINT", "PRIMARY", "NOT", "NULL", "UNIQUE", "CHECK", "DEFAULT", "COLLATE", "REFERENCES", "GENERATED",
    "AS"]

/-- The affinity of a declared type. -/
def Affinity.ofType (type : String) : Affinity :=
  let mentions (part : String) : Bool := (type.toUpper.splitOn part).length > 1
  if mentions "INT" then .integer
  else if mentions "CHAR" || mentions "CLOB" || mentions "TEXT" || mentions "BLOB" || type.isEmpty then .text
  else if mentions "REAL" || mentions "FLOA" || mentions "DOUB" then .real
  else .integer

/-- A column as it is declared. -/
structure DeclaredColumn where
  name : String
  type : String
  isKey : Bool
deriving DecidableEq, Repr

/-- The column of a definition, unless that is a rule on the table. -/
def column? : List Token → Option DeclaredColumn
  | [] => none
  | first :: rest =>
    if isWord tableRules first then none
    else do
      let type := (rest.takeWhile fun t => !isWord columnRules t).filterMap Token.name?
      some ⟨← first.name?, " ".intercalate type, rest.any (isWord ["PRIMARY"])⟩

/-- The column of a primary key that a rule on the table declares. -/
def keyRule? (definition : List Token) : Option String :=
  match definition.dropWhile (fun t => !isWord ["PRIMARY"] t) with
  | _ :: .word _ :: .mark '(' :: name :: .mark ')' :: _ => name.name?
  | _ => none

/-- The columns of a declared table, and the name of the one that is the primary key. -/
def declaration (text : String) : List DeclaredColumn × Option String :=
  let s := text.toList
  let all := definitions 0 [] ((tokens s.length s).dropWhile (· ≠ .mark '(')).tail
  let columns := all.filterMap column?
  (columns, (columns.find? DeclaredColumn.isKey).map DeclaredColumn.name <|> all.findSome? keyRule?)

end Reporting.Sql.Image

import Reporting.Calendar.Reader
import Reporting.Decimal.Reader
import Reporting.Text.Digits
import Reporting.Tree.Basic

/-!
Strings, numbers, truth values and dates of TOML, and the bare parts of keys.
-/

namespace Reporting.Toml
open Text

/-- A reader takes something from the front of a text and gives what is left. -/
abbrev Reader (α : Type) := List Char → Option (α × List Char)

/-- Characters that may stand in comments and strings as they are: all but controls, and the tab. -/
def isShown (c : Char) : Bool :=
  c == '\t' || (32 ≤ c.toNat && c.toNat != 127)

def skipSpaces (s : List Char) : List Char :=
  s.dropWhile fun c => c == ' ' || c == '\t'

/-- The rest after a line end, if there is one here. -/
def lineEnd? : List Char → Option (List Char)
  | '\n' :: rest => some rest
  | '\r' :: '\n' :: rest => some rest
  | _ => none

/-- A comment up to the end of its line, if one begins here. -/
def skipComment : List Char → List Char
  | '#' :: rest => rest.dropWhile isShown
  | s => s

/-- What may follow a statement on its line: spaces, a comment, and the end of the line or text. -/
def endOfStatement? (s : List Char) : Option (List Char) :=
  match skipComment (skipSpaces s) with
  | [] => some []
  | s => lineEnd? s

def hexDigit? (c : Char) : Option Nat :=
  if c.isDigit then some (c.toNat - 48)
  else if 'a' ≤ c ∧ c ≤ 'f' then some (c.toNat - 87)
  else if 'A' ≤ c ∧ c ≤ 'F' then some (c.toNat - 55)
  else none

/-- The character with the number in base sixteen, if it is one. -/
def hexChar? (digits : List Char) (count : Nat) : Option Char :=
  if digits.length = count then
    (digits.mapM hexDigit?).bind fun values =>
      let n := values.foldl (fun n d => n * 16 + d) 0
      if n < 0xD800 ∨ (0xE000 ≤ n ∧ n ≤ 0x10FFFF) then some (Char.ofNat n) else none
  else none

/-- The character after a backslash, and the rest. -/
def escape? : List Char → Option (Char × List Char)
  | 'b' :: rest => some (Char.ofNat 8, rest)
  | 't' :: rest => some ('\t', rest)
  | 'n' :: rest => some ('\n', rest)
  | 'f' :: rest => some (Char.ofNat 12, rest)
  | 'r' :: rest => some ('\r', rest)
  | '"' :: rest => some ('"', rest)
  | '\\' :: rest => some ('\\', rest)
  | 'u' :: rest => (hexChar? (rest.take 4) 4).map fun c => (c, rest.drop 4)
  | 'U' :: rest => (hexChar? (rest.take 8) 8).map fun c => (c, rest.drop 8)
  | _ => none

/-- The rest of a string in double quotes on one line; the characters so far are given last first, and the
first argument bounds the number of characters. -/
def basicString? : Nat → List Char → Reader String
  | 0, _, _ => none
  | _ + 1, _, [] => none
  | _ + 1, read, '"' :: rest => some (String.ofList read.reverse, rest)
  | n + 1, read, '\\' :: rest =>
    match escape? rest with
    | some (c, rest) => basicString? n (c :: read) rest
    | none => none
  | n + 1, read, c :: rest => if isShown c then basicString? n (c :: read) rest else none

/-- The rest of a string in single quotes on one line: every character stands for itself. -/
def literalString? (s : List Char) : Option (String × List Char) :=
  let body := s.takeWhile fun c => c != '\'' && isShown c
  match s.drop body.length with
  | '\'' :: rest => some (String.ofList body, rest)
  | _ => none

/-- Blanks and line ends after a backslash at the end of a line. -/
def skipFolded : Nat → List Char → List Char
  | 0, s => s
  | n + 1, s =>
    let s := skipSpaces s
    match lineEnd? s with
    | some rest => skipFolded n rest
    | none => s

/-- The rest after a line end behind a backslash, if that is what follows. -/
def folded? (s : List Char) : Option (List Char) :=
  (lineEnd? (skipSpaces s)).map fun rest => skipFolded rest.length rest

/-- Up to two quotes may stand directly before the three that close a string of several lines. -/
def closing? (quote : Char) (s : List Char) : Option (List Char × List Char) :=
  let quotes := s.takeWhile (· == quote)
  if 3 ≤ quotes.length then
    let inside := min 2 (quotes.length - 3)
    some (List.replicate inside quote, s.drop (inside + 3))
  else none

/-- The rest of a string of several lines; with escapes if the quotes are double. -/
def longString? (quote : Char) : Nat → List Char → Reader String
  | 0, _, _ => none
  | n + 1, read, s =>
    match closing? quote s with
    | some (inside, rest) => some (String.ofList (read.reverse ++ inside), rest)
    | none =>
      match lineEnd? s with
      | some rest => longString? quote n ('\n' :: read) rest
      | none =>
        match s with
        | [] => none
        | c :: rest =>
          if c = '\\' ∧ quote = '"' then
            match folded? rest with
            | some rest => longString? quote n read rest
            | none =>
              match escape? rest with
              | some (c, rest) => longString? quote n (c :: read) rest
              | none => none
          else if isShown c then longString? quote n (c :: read) rest
          else none

/-- A line end directly after the opening quotes is not part of the string. -/
def skipFirstLineEnd (s : List Char) : List Char :=
  (lineEnd? s).getD s

/-- A string of any of the four kinds. -/
def string? : Reader String
  | '"' :: '"' :: '"' :: rest => longString? '"' (rest.length + 1) [] (skipFirstLineEnd rest)
  | '\'' :: '\'' :: '\'' :: rest => longString? '\'' (rest.length + 1) [] (skipFirstLineEnd rest)
  | '"' :: rest => basicString? (rest.length + 1) [] rest
  | '\'' :: rest => literalString? rest
  | _ => none

/-- Digits of a class with single underscores between them. -/
def underscored? (isDigit : Char → Bool) : List Char → Option (List Char)
  | [] => none
  | [c] => if isDigit c then some [c] else none
  | c :: '_' :: rest =>
    if isDigit c then (underscored? isDigit rest).map (c :: ·) else none
  | c :: rest => if isDigit c then (underscored? isDigit rest).map (c :: ·) else none

/-- Decimal digits without a superfluous zero in front. -/
def wholeDigits? (s : List Char) : Option (List Char) :=
  match underscored? Char.isDigit s with
  | some ['0'] => some ['0']
  | some ('0' :: _) => none
  | digits => digits

def integer? (i : Int) : Option Tree :=
  if Decimal.fitsInt64 i then some (.integer i) else none

/-- Digits in base two, eight or sixteen. -/
def basedInteger? (base : Nat) (s : List Char) : Option Tree :=
  let isDigit (c : Char) : Bool := match hexDigit? c with | some d => d < base | none => false
  (underscored? isDigit s).bind fun digits =>
    integer? (digits.foldl (fun n c => n * base + (hexDigit? c).getD 0) 0 : Nat)

/-- An exponent: digits with an optional sign. -/
def exponent? (s : List Char) : Option Int :=
  let (negative, digits) := Decimal.splitSign s
  (underscored? Char.isDigit digits).map fun digits =>
    let n : Int := runValue digits
    if negative then -n else n

/-- A decimal number without its sign: an integer, or with a point, an exponent or both a real number. -/
def decimal? (negative : Bool) (s : List Char) : Option Tree := do
  let isMark (c : Char) : Bool := c == '.' || c == 'e' || c == 'E'
  let head := s.takeWhile fun c => !isMark c
  let whole ← wholeDigits? head
  let real (places : List Char) (exponent : Int) : Option Tree :=
    let x := Decimal.nearest (runValue (whole ++ places)) (exponent - places.length)
    if x.isInf ∧ !negative then none else some (.float (if negative then -x else x))
  match s.drop head.length with
  | [] =>
    let n : Int := runValue whole
    integer? (if negative then -n else n)
  | '.' :: rest =>
    let tail := rest.takeWhile fun c => !isMark c
    let places ← underscored? Char.isDigit tail
    match rest.drop tail.length with
    | [] => real places 0
    | '.' :: _ => none
    | _ :: power => real places (← exponent? power)
  | _ :: power => real [] (← exponent? power)

/-- A number. Only decimal ones have signs. -/
def number? (s : List Char) : Option Tree :=
  match s with
  | '0' :: 'x' :: digits => basedInteger? 16 digits
  | '0' :: 'o' :: digits => basedInteger? 8 digits
  | '0' :: 'b' :: digits => basedInteger? 2 digits
  | _ =>
    let (negative, rest) := Decimal.splitSign s
    match rest with
    | ['i', 'n', 'f'] => (Decimal.readFloat? s).map .float
    | ['n', 'a', 'n'] => some (.float (0 / 0))
    | _ => decimal? negative rest

/-- A time of day to the second, perhaps with a fraction. -/
def isTime (s : List Char) : Bool :=
  (do
    let (hour, s) ← Calendar.readExactly? 2 s
    let s ← Calendar.skipMark? ':' s
    let (minute, s) ← Calendar.readExactly? 2 s
    let s ← Calendar.skipMark? ':' s
    let (second, s) ← Calendar.readExactly? 2 s
    let s ←
      match s with
      | '.' :: rest => (Calendar.readFraction? rest).map Prod.snd
      | _ => some s
    if 23 < hour ∨ 59 < minute ∨ 60 < second ∨ !s.isEmpty then none else some ()).isSome

def isDate (s : List Char) : Bool :=
  (do
    let (year, s) ← Calendar.readExactly? 4 s
    let s ← Calendar.skipMark? '-' s
    let (month, s) ← Calendar.readExactly? 2 s
    let s ← Calendar.skipMark? '-' s
    let (day, s) ← Calendar.readExactly? 2 s
    if s.isEmpty then Calendar.Date.ofNumbers? year month day else none).isSome

/-- A time of day, perhaps with its distance from universal time. -/
def isZonedTime (s : List Char) : Bool :=
  let time := s.takeWhile fun c => c.isDigit || c == ':' || c == '.'
  isTime time &&
    match s.drop time.length with
    | [] => true
    | zone => match Calendar.readOffset? zone with | some (_, rest) => rest.isEmpty | none => false

/-- A date that is written as such and not as a string: a table with its text under a name of its own, so
that it stands for no string. -/
def dateLiteral (s : List Char) : Tree :=
  .table [("$__toml_private_datetime", .string (String.ofList s))]

/-- A date, a time, or both with a T between. -/
def dateLiteral? (s : List Char) : Option Tree :=
  if isTime s || isDate s then some (dateLiteral s)
  else
    match s.drop 10 with
    | c :: time =>
      if (c = 'T' ∨ c = 't' ∨ c = ' ') ∧ isDate (s.take 10) ∧ isZonedTime time then some (dateLiteral s) else none
    | [] => none

/-- Characters of numbers, dates and truth values. -/
def isWordChar (c : Char) : Bool :=
  c.isAlphanum || c == '_' || c == '-' || c == '+' || c == '.' || c == ':'

def word? (s : List Char) : Option Tree :=
  if s = ['t', 'r', 'u', 'e'] then some (.bool true)
  else if s = ['f', 'a', 'l', 's', 'e'] then some (.bool false)
  else number? s <|> dateLiteral? s

/-- A number, a date or a truth value. The time may follow its date after a blank. -/
def plain? : Reader Tree := fun s =>
  let word := s.takeWhile isWordChar
  let rest := s.drop word.length
  let dated :=
    match rest with
    | ' ' :: after =>
      let time := after.takeWhile isWordChar
      if isDate word ∧ isZonedTime time then some (dateLiteral (word ++ ' ' :: time), after.drop time.length) else none
    | _ => none
  match dated with
  | some found => some found
  | none => (word? word).map fun t => (t, rest)

def isBareChar (c : Char) : Bool :=
  c.isAlphanum || c == '_' || c == '-'

/-- One part of a key: bare, or a string on one line. -/
def keyPart? : Reader String
  | '"' :: rest => basicString? (rest.length + 1) [] rest
  | '\'' :: rest => literalString? rest
  | s =>
    let bare := s.takeWhile isBareChar
    if bare.isEmpty then none else some (String.ofList bare, s.drop bare.length)

/-- The parts of a key with points between, in at most so many steps. -/
def keyParts? : Nat → Reader (List String)
  | 0, _ => none
  | n + 1, s =>
    match keyPart? (skipSpaces s) with
    | none => none
    | some (part, rest) =>
      match skipSpaces rest with
      | '.' :: rest => (keyParts? n rest).map fun (parts, rest) => (part :: parts, rest)
      | rest => some ([part], rest)

/-- A key of fewer than eighty parts. -/
def key? : Reader (List String) :=
  keyParts? 79

end Reporting.Toml

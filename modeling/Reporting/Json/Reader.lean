import Reporting.Tree.Basic

/-!
Reading JSON. A number without a point and an exponent is an integer, however long; minus zero is not.
-/

namespace Reporting.Json

def isBlank (c : Char) : Bool :=
  c == ' ' || c == '\n' || c == '\t' || c == '\r'

def skipBlanks (s : List Char) : List Char :=
  s.dropWhile isBlank

/-- The value of a digit of base sixteen. -/
def hexValue? (c : Char) : Option Nat :=
  if c.isDigit then some (c.toNat - 48)
  else if 'a' ≤ c ∧ c ≤ 'f' then some (c.toNat - 87)
  else if 'A' ≤ c ∧ c ≤ 'F' then some (c.toNat - 55)
  else none

/-- The value of four digits of base sixteen. -/
def hexFour? (a b c d : Char) : Option Nat := do
  let a ← hexValue? a
  let b ← hexValue? b
  let c ← hexValue? c
  let d ← hexValue? d
  some (((a * 16 + b) * 16 + c) * 16 + d)

/-- The character that a letter after a backslash stands for. -/
def escaped? (c : Char) : Option Char :=
  match c with
  | 'n' => some '\n'
  | 't' => some '\t'
  | 'r' => some '\r'
  | 'b' => some (Char.ofNat 8)
  | 'f' => some (Char.ofNat 12)
  | '"' => some '"'
  | '\\' => some '\\'
  | '/' => some '/'
  | _ => none

/-- The first half of a pair that stands for a character beyond 16 bits, and the second half. -/
def isHigh (n : Nat) : Bool := 0xD800 ≤ n && n < 0xDC00
def isLow (n : Nat) : Bool := 0xDC00 ≤ n && n < 0xE000

/-- The rest of a string after its opening quote; the characters so far are given last first. -/
def readString? (before : List Char) : List Char → Option (String × List Char)
  | '"' :: rest => some (String.ofList before.reverse, rest)
  | '\\' :: 'u' :: a :: b :: c :: d :: '\\' :: 'u' :: e :: f :: g :: h :: rest =>
    match hexFour? a b c d, hexFour? e f g h with
    | some n, some m =>
      if isHigh n then
        if isLow m then
          readString? (Char.ofNat (0x10000 + (n - 0xD800) * 0x400 + (m - 0xDC00)) :: before) rest
        else none
      else if isLow n then none
      else readString? (Char.ofNat n :: before) ('\\' :: 'u' :: e :: f :: g :: h :: rest)
    | _, _ => none
  | '\\' :: 'u' :: a :: b :: c :: d :: rest =>
    match hexFour? a b c d with
    | some n => if isHigh n || isLow n then none else readString? (Char.ofNat n :: before) rest
    | none => none
  | '\\' :: c :: rest =>
    match escaped? c with
    | some e => readString? (e :: before) rest
    | none => none
  | c :: rest => if c.toNat < 32 then none else readString? (c :: before) rest
  | [] => none

def isNumberChar (c : Char) : Bool :=
  c.isDigit || c == '-' || c == '+' || c == '.' || c == 'e' || c == 'E'

/-- Some digits, and nothing else. -/
def areDigits (s : List Char) : Bool :=
  !s.isEmpty && s.all Char.isDigit

/-- An exponent without its letter. -/
def isExponent : List Char → Bool
  | '+' :: digits => areDigits digits
  | '-' :: digits => areDigits digits
  | digits => areDigits digits

/-- What may follow the whole part of a number: a fraction, an exponent, both or nothing. -/
def isFractionAndExponent : List Char → Bool
  | [] => true
  | '.' :: rest =>
    areDigits (rest.takeWhile Char.isDigit) &&
      match rest.dropWhile Char.isDigit with
      | [] => true
      | c :: exponent => (c == 'e' || c == 'E') && isExponent exponent
  | c :: exponent => (c == 'e' || c == 'E') && isExponent exponent

/-- A number without its sign: no zero stands before other digits. -/
def isMagnitude (s : List Char) : Bool :=
  let whole := s.takeWhile Char.isDigit
  (whole == ['0'] || (areDigits whole && whole.head? != some '0'))
    && isFractionAndExponent (s.dropWhile Char.isDigit)

def number? (s : List Char) : Option Tree :=
  let magnitude := match s with | '-' :: rest => rest | rest => rest
  if !isMagnitude magnitude then none
  else if s.all (fun c => c.isDigit || c == '-') && s != ['-', '0'] then
    (Decimal.readInteger? s).map Tree.integer
  else (Decimal.readFloat? s).map Tree.float

mutual

/-- A value and what follows it. The number bounds how many values are read. -/
def readValue? : Nat → List Char → Option (Tree × List Char)
  | 0, _ => none
  | bound + 1, s =>
    match skipBlanks s with
    | '"' :: rest => (readString? [] rest).map fun (text, rest) => (.string text, rest)
    | '[' :: rest =>
      match skipBlanks rest with
      | ']' :: rest => some (.list [], rest)
      | rest => readItems? bound [] rest
    | '\x7b' :: rest =>
      match skipBlanks rest with
      | '\x7d' :: rest => some (.table [], rest)
      | rest => readMembers? bound [] rest
    | 't' :: 'r' :: 'u' :: 'e' :: rest => some (.bool true, rest)
    | 'f' :: 'a' :: 'l' :: 's' :: 'e' :: rest => some (.bool false, rest)
    | 'n' :: 'u' :: 'l' :: 'l' :: rest => some (.null, rest)
    | s => (number? (s.takeWhile isNumberChar)).map fun t => (t, s.dropWhile isNumberChar)

/-- The rest of an array; the items so far are given last first. -/
def readItems? : Nat → List Tree → List Char → Option (Tree × List Char)
  | 0, _, _ => none
  | bound + 1, before, s =>
    match readValue? bound s with
    | none => none
    | some (item, rest) =>
      match skipBlanks rest with
      | ',' :: rest => readItems? bound (item :: before) rest
      | ']' :: rest => some (.list (item :: before).reverse, rest)
      | _ => none

/-- The rest of an object; the members so far are given last first. -/
def readMembers? : Nat → List (String × Tree) → List Char → Option (Tree × List Char)
  | 0, _, _ => none
  | bound + 1, before, s =>
    match skipBlanks s with
    | '"' :: rest =>
      match readString? [] rest with
      | none => none
      | some (name, rest) =>
        match skipBlanks rest with
        | ':' :: rest =>
          match readValue? bound rest with
          | none => none
          | some (value, rest) =>
            match skipBlanks rest with
            | ',' :: rest => readMembers? bound ((name, value) :: before) rest
            | '\x7d' :: rest => some (.table ((name, value) :: before).reverse, rest)
            | _ => none
        | _ => none
    | _ => none

end

/-- The document that a text holds. -/
def read? (text : String) : Option Tree :=
  let s := text.toList
  match readValue? (2 * s.length + 1) s with
  | some (t, rest) => if (skipBlanks rest).isEmpty then some t else none
  | none => none

end Reporting.Json

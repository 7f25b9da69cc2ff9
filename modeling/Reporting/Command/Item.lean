import Reporting.Command.Basic

/-!
The items of a command line: options with their values, operands, and requests for help or the version.
Reading them needs no knowledge of the command, since an option is the same for all that have it.
-/

namespace Reporting

/-- An item of the arguments. -/
inductive ArgumentItem where
  | option (name : OptionName) (value : String)
  | operand (text : String)
  /-- only operands follow -/
  | separator
  | help
  | version
  | fault (cause : UsageError)
deriving DecidableEq, Repr

namespace ArgumentItem

/-- What an argument alone says. -/
inductive Lexeme where
  /-- an option, perhaps with its value in the same argument -/
  | option (name : OptionName) (value : Option String)
  | item (item : ArgumentItem)

/-- An argument that begins with two dashes: a name, and perhaps a value after an equals sign. -/
def longLexeme (text : List Char) : Lexeme :=
  let name := String.ofList (text.takeWhile (· ≠ '='))
  let value := match text.dropWhile (· ≠ '=') with
    | [] => none
    | _ :: value => some (String.ofList value)
  match OptionName.ofLong? name with
  | some known => .option known value
  | none =>
    if name = "help" ∨ name = "version" then
      match value with
      | some value => .item (.fault (.unexpectedValue value))
      | none => .item (if name = "help" then .help else .version)
    else .item (.fault (.unknownOption name))

/-- An argument that begins with one dash: a character, and after it perhaps a value. -/
def shortLexeme (c : Char) (rest : List Char) : Lexeme :=
  match OptionName.ofShort? c with
  | some known =>
    .option known (match rest with
      | [] => none
      | '=' :: value => some (String.ofList value)
      | value => some (String.ofList value))
  | none =>
    if c = 'h' then .item .help
    else if c = 'V' then .item .version
    else .item (.fault (.unknownOption c.toString))

def lexeme (argument : String) : Lexeme :=
  match argument.toList with
  | ['-', '-'] => .item .separator
  | '-' :: '-' :: text => longLexeme text
  | '-' :: c :: rest => shortLexeme c rest
  | _ => .item (.operand argument)

/-- An argument that is no value of the option before it. A dash alone is a value. -/
def isOptionLike (argument : String) : Bool :=
  match argument.toList with
  | '-' :: _ :: _ => true
  | _ => false

/-- The items of the arguments in order; a fault ends them. -/
def ofArguments : List String → List ArgumentItem
  | [] => []
  | argument :: rest =>
    match lexeme argument with
    | .item .separator => .separator :: rest.map operand
    | .item found => found :: ofArguments rest
    | .option name (some value) => option name value :: ofArguments rest
    | .option name none =>
      match rest with
      | [] => [fault (.missingValue name)]
      | value :: rest =>
        if isOptionLike value then [fault (.missingValue name)] else option name value :: ofArguments rest

/-- Items that may stand before the name of a command. -/
def isLeading : ArgumentItem → Bool
  | operand _ => false
  | separator => false
  | _ => true

end ArgumentItem

end Reporting

import Reporting.Command.Item

/-!
The arguments of the command line. Options may stand before or after the name of the command; each command
says which of them it has, and how many operands.
-/

namespace Reporting

/-- The options and operands so far. -/
structure Given where
  options : List (OptionName × String)
  operands : List String
deriving DecidableEq, Repr

namespace Given

def none : Given := ⟨[], []⟩

def value? (g : Given) (name : OptionName) : Option String :=
  g.options.lookup name

/-- Adds an option that was not given before. -/
def addOption (g : Given) (name : OptionName) (value : String) : Except UsageError Given :=
  if (g.value? name).isSome then .error (.repeatedOption name)
  else if name.takesPath && value.isEmpty then .error .emptyPath
  else .ok { g with options := g.options ++ [(name, value)] }

/-- Adds an operand, if there is one of the forms left for it. -/
def addOperand (g : Given) (forms : List OperandForm) (text : String) : Except UsageError Given :=
  match forms[g.operands.length]? with
  | .none => .error (.unexpectedOperand text)
  | some form =>
    if form.takesPath && text.isEmpty then .error .emptyPath
    else .ok { g with operands := g.operands ++ [text] }

end Given

/-- The outcome of reading items: what is given, or a request that needs no more. -/
inductive Scan where
  | given (given : Given)
  | request (request : Request)

/-- Reads the items before the name of the command. -/
def Scan.leading (g : Given) : List ArgumentItem → Except UsageError Scan
  | [] => .ok (.given g)
  | .help :: _ => .ok (.request (.help none))
  | .version :: _ => .ok (.request .version)
  | .fault cause :: _ => .error cause
  | .option name value :: rest =>
    if OptionName.shared.contains name then
      match g.addOption name value with
      | .ok g => leading g rest
      | .error cause => .error cause
    else .error (.unknownOption name.long)
  | .operand text :: _ => .error (.unexpectedOperand text)
  | .separator :: _ => .error .missingCommand

/-- Reads the items after the name of the command. -/
def Scan.following (command : CommandName) (g : Given) : List ArgumentItem → Except UsageError Scan
  | [] => .ok (.given g)
  | .help :: _ => .ok (.request (.help (some command)))
  | .version :: _ => .error (.unknownOption "version")
  | .fault cause :: _ => .error cause
  | .option name value :: rest =>
    if command.options.contains name then
      match g.addOption name value with
      | .ok g => following command g rest
      | .error cause => .error cause
    else .error (.unknownOption name.long)
  | .operand text :: rest =>
    match g.addOperand command.operands text with
    | .ok g => following command g rest
    | .error cause => .error cause
  | .separator :: rest => following command g rest

/-- The command of what is given, if no operand is missing. -/
def CommandName.command (name : CommandName) (g : Given) : Except UsageError Command :=
  match name, g.operands with
  | .run, [definition] => .ok (.run definition (g.value? .source) (g.value? .schema) (g.value? .slug))
  | .fields, [] => .ok .fields
  | .windows, [pattern, start, finish] => .ok (.windows pattern start finish)
  | .writeSettings, [] => .ok (.writeSettings (g.value? .output))
  | _, operands => .error (.missingOperand ((name.operands[operands.length]?.map OperandForm.name).getD ""))

namespace Request

/-- The request for help on what the items name. -/
def ofHelpItems : List ArgumentItem → Except UsageError Request
  | [] => .ok (.help none)
  | [.operand text] =>
    match CommandName.ofName? text with
    | some command => .ok (.help (some command))
    | none => if text = "help" then .ok (.help none) else .error (.unknownCommand text)
  | _ => .error (.unknownCommand "")

/-- The request of a command with items after it; what is given after its name goes before what is given
in front of it. -/
def ofCommandItems (top : Given) (name : CommandName) (items : List ArgumentItem) :
    Except UsageError Request := do
  match ← Scan.following name .none items with
  | .request request => return request
  | .given own =>
    let command ← name.command own
    let value? (option : OptionName) : Option String := own.value? option <|> top.value? option
    return .invoke ⟨value? .settings, .ofName ((value? .format).getD "table"), command⟩

/-- What the arguments ask for. -/
def ofArguments (arguments : List String) : Except UsageError Request := do
  let items := ArgumentItem.ofArguments arguments
  match ← Scan.leading .none (items.takeWhile ArgumentItem.isLeading) with
  | .request request => return request
  | .given top =>
    match items.dropWhile ArgumentItem.isLeading with
    | .operand text :: rest =>
      if text = "help" then ofHelpItems rest
      else
        match CommandName.ofName? text with
        | some name => ofCommandItems top name rest
        | none => .error (.unknownCommand text)
    | _ => .error .missingCommand

end Request
end Reporting

/-!
Commands, their options and operands, and what the arguments of the command line may ask for.
-/

namespace Reporting

/-- How the answer of a command is written. -/
inductive OutputFormat where
  | table
  | json
  | csv
deriving DecidableEq, Repr

/-- The format of a name; names that are not known mean a table. -/
def OutputFormat.ofName : String → OutputFormat
  | "json" => json
  | "csv" => csv
  | _ => table

/-- What a command is to do. -/
inductive Command where
  /-- makes the report of a definition -/
  | run (definition : String) (source schema slug : Option String)
  /-- lists the computation fields -/
  | fields
  /-- lists the windows of a time series -/
  | windows (pattern start finish : String)
  /-- writes a file of settings, or shows it -/
  | writeSettings (output : Option String)
deriving DecidableEq, Repr

inductive CommandName where
  | run
  | fields
  | windows
  | writeSettings
deriving DecidableEq, Repr

/-- An option. Each takes a value. -/
inductive OptionName where
  | settings
  | format
  | source
  | schema
  | slug
  | output
deriving DecidableEq, Repr

/-- A command, and what holds for all commands. -/
structure Invocation where
  settings : Option String
  format : OutputFormat
  command : Command
deriving DecidableEq, Repr

/-- What the arguments ask for. -/
inductive Request where
  | invoke (invocation : Invocation)
  | help (command : Option CommandName)
  | version
deriving DecidableEq, Repr

/-- Why arguments ask for nothing. -/
inductive UsageError where
  | missingCommand
  | unknownCommand (name : String)
  | unknownOption (text : String)
  | repeatedOption (name : OptionName)
  | missingValue (name : OptionName)
  /-- a value for what takes none -/
  | unexpectedValue (text : String)
  /-- a path without a character -/
  | emptyPath
  | missingOperand (name : String)
  | unexpectedOperand (text : String)
deriving DecidableEq, Repr

namespace OptionName

def all : List OptionName :=
  [settings, format, source, schema, slug, output]

def long : OptionName → String
  | settings => "config"
  | format => "format"
  | source => "source"
  | schema => "schema"
  | slug => "slug"
  | output => "output"

def short? : OptionName → Option Char
  | settings => some 'c'
  | format => some 'f'
  | source => some 's'
  | schema => none
  | slug => none
  | output => some 'o'

/-- The value is a path, which has at least one character. -/
def takesPath : OptionName → Bool
  | settings => true
  | schema => true
  | output => true
  | _ => false

def ofLong? (name : String) : Option OptionName :=
  all.find? fun o => o.long == name

def ofShort? (c : Char) : Option OptionName :=
  all.find? fun o => o.short? == some c

/-- The options that every command has; they may also stand before its name. -/
def shared : List OptionName :=
  [settings, format]

end OptionName

/-- What an operand is called and stands for, and whether it is a path. -/
structure OperandForm where
  name : String
  summary : String
  takesPath : Bool
deriving DecidableEq, Repr

namespace CommandName

def all : List CommandName :=
  [run, fields, windows, writeSettings]

def name : CommandName → String
  | run => "run"
  | fields => "fields"
  | windows => "windows"
  | writeSettings => "init-config"

def ofName? (name : String) : Option CommandName :=
  all.find? fun c => c.name == name

/-- The options of the command in the order in which they are shown. -/
def options : CommandName → List OptionName
  | run => [.settings, .source, .format, .schema, .slug]
  | writeSettings => [.settings, .output, .format]
  | _ => OptionName.shared

def operands : CommandName → List OperandForm
  | run => [⟨"DEFINITION", "Path to the report definition (TOML)", true⟩]
  | windows =>
    [⟨"PATTERN", "Pattern (daily, weekly, bi-weekly, monthly, quarterly, semiannually, annually)", false⟩,
      ⟨"START", "Start date (inclusive)", false⟩, ⟨"END", "End date (exclusive)", false⟩]
  | _ => []

end CommandName

end Reporting

import Reporting.Command.Basic
import Reporting.Text.Aligned

/-!
What is said about the command line: help on commands and options, and what is wrong with arguments.
-/

namespace Reporting

/-- The name of the program. -/
def programName : String := "tally"

/-- The name and the version of the program. -/
def versionText : String := programName ++ " 0.1.0\n"

def CommandName.summary : CommandName → String
  | run => "Run a report definition"
  | fields => "List registered computation fields"
  | windows => "Show the date windows a time-series pattern produces"
  | writeSettings => "Generate default config file"

def OptionName.summary : OptionName → String
  | settings => "Config file (default: ~/.config/tally/config.toml, ./tally.toml)"
  | format => "Output format (table, json, csv) [default: table]"
  | source => "Data source path, overriding the config"
  | schema => "Schema file, overriding the config"
  | slug => "Report slug used in JSON output"
  | output => "Output file (default: stdout)"

/-- How an option and its value are written. -/
def OptionName.usage (o : OptionName) : String :=
  let short := match o.short? with
    | some c => "-" ++ c.toString ++ ", "
    | none => "    "
  short ++ "--" ++ o.long ++ " <" ++ String.ofList (o.long.toList.map Char.toUpper) ++ ">"

/-- Pairs of a term and what it means, in two columns. -/
def glossaryText (pairs : List (String × String)) : String :=
  let width := pairs.foldl (fun width pair => max width pair.1.length) 0
  Text.lines (pairs.map fun (term, meaning) => "  " ++ Text.padRight width term ++ "  " ++ meaning)

/-- A heading with terms below it, or nothing where there are none. -/
def sectionText (heading : String) (pairs : List (String × String)) : String :=
  if pairs.isEmpty then "" else "\n" ++ heading ++ ":\n" ++ glossaryText pairs

/-- The options and what they mean, with more of the same kind. -/
def optionsText (options : List OptionName) (more : List (String × String)) : String :=
  sectionText "Options" (options.map (fun o => (o.usage, o.summary)) ++ more)

def helpOption : String × String := ("-h, --help", "Print help")
def versionOption : String × String := ("-V, --version", "Print version")

def OperandForm.usage (o : OperandForm) : String := "<" ++ o.name ++ ">"

/-- What a command does, and how it is used. -/
def usageText (summary usage : String) : String :=
  summary ++ "\n\nUsage: " ++ programName ++ " " ++ usage ++ "\n"

/-- Help on a command. -/
def CommandName.help (c : CommandName) : String :=
  let words := c.name :: "[OPTIONS]" :: c.operands.map OperandForm.usage
  usageText c.summary (" ".intercalate words)
    ++ sectionText "Arguments" (c.operands.map fun o => (o.usage, o.summary))
    ++ optionsText c.options [helpOption]

/-- Help on the program. -/
def programHelp : String :=
  usageText "Grouped, time-series and cross-tab reports over relational data" "[OPTIONS] <COMMAND>"
    ++ sectionText "Commands" (CommandName.all.map (fun c => (c.name, c.summary))
      ++ [("help", "Print this message or the help of the given subcommand(s)")])
    ++ optionsText OptionName.shared [helpOption, versionOption]

/-- The help that a request asks for. -/
def helpText : Option CommandName → String
  | some command => command.help
  | none => programHelp

/-- The sentence shown for arguments that ask for nothing. -/
def UsageError.message : UsageError → String
  | missingCommand => "a command is required"
  | unknownCommand name => "unrecognized command '" ++ name ++ "'"
  | unknownOption text => "unexpected option '" ++ text ++ "'"
  | repeatedOption name => "the option '--" ++ name.long ++ "' cannot be used more than once"
  | missingValue name => "a value is required for '" ++ name.usage ++ "'"
  | unexpectedValue text => "unexpected value '" ++ text ++ "'"
  | emptyPath => "a path must not be empty"
  | missingOperand name => "the argument <" ++ name ++ "> is required"
  | unexpectedOperand text => "unexpected argument '" ++ text ++ "'"

end Reporting

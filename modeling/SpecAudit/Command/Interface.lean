import SpecAudit.Finding.Cop

/-!
# The commands and their options

What can be given on the command line, and what the help texts say about it.
-/

namespace SpecAudit.Command

/-- What an option takes. -/
inductive OptionKind where
  /-- Nothing: it asks for help. -/
  | help
  /-- Nothing: it is there or not. -/
  | truth
  /-- A text, which has to be one of the choices if there are any. -/
  | text (choices : List String)
  deriving DecidableEq

/-- An option: the names it goes by, and what it takes. -/
structure OptionSpec where
  names : List String
  kind : OptionKind
  deriving DecidableEq

/-- The commands that can be given at a level: what they are called together, and which they are. -/
structure Choice where
  name : String
  commands : List String
  required : Bool

/-- A level of the command line: the words that lead to it, its usage and help texts, its options,
its operands, and the commands that can be given at it. -/
structure Interface where
  program : String
  usage : String
  help : String
  options : List OptionSpec
  operands : List String
  choice? : Option Choice

/-- The option that asks for help. -/
def helpOption : OptionSpec := ⟨["-h", "--help"], .help⟩

/-- Lines of text, each with a line feed at its end. -/
def textOfLines (lines : List String) : String :=
  String.join (lines.map (· ++ "\n"))

/-- A help text: the usage line, an empty line, and what follows. -/
def helpText (usage : String) (lines : List String) : String :=
  textOfLines (usage :: "" :: lines)

/-- The usage of the program. -/
def programUsage : String :=
  "usage: specparity [-h] [--exclude PATTERN] \x7bscan,config\x7d ..."

/-- The program itself. -/
def programInterface : Interface where
  program := "specparity"
  usage := programUsage
  help := helpText programUsage [
    "specparity: RSpec parity checks for Rails codebases",
    "",
    "positional arguments:",
    "  \x7bscan,config\x7d",
    "    scan             Run the spec parity cops and report offenses",
    "    config           Show/set/unset project configuration",
    "",
    "options:",
    "  -h, --help         show this help message and exit",
    "  --exclude PATTERN  Path component or prefix to exclude (repeatable:",
    "                     --exclude foo --exclude bar)",
    "",
    "examples:",
    "  specparity scan                      audit the whole project",
    "  specparity scan --path app/services  audit one directory",
    "  specparity scan --json               machine-readable findings",
    "  specparity config set ignore_memoization false" ]
  options := [helpOption, ⟨["--exclude"], .text []⟩]
  operands := []
  choice? := some ⟨"command", ["scan", "config"], true⟩

/-- The usage of the command that scans. -/
def scanUsage : String :=
  "usage: specparity scan [-h] [--path PATH] [--json] [--only COP]"

/-- The command that scans. -/
def scanInterface : Interface where
  program := "specparity scan"
  usage := scanUsage
  help := helpText scanUsage [
    "options:",
    "  -h, --help   show this help message and exit",
    "  --path PATH  File or directory to scan (default: project root)",
    "  --json       Output findings as JSON",
    "  --only COP   Run only this cop (repeatable)" ]
  options := [helpOption, ⟨["--path"], .text []⟩, ⟨["--json"], .truth⟩,
    ⟨["--only"], .text Cop.names⟩]
  operands := []
  choice? := none

/-- The usage of the command that handles the configuration. -/
def configUsage : String :=
  "usage: specparity config [-h] \x7bshow,set,unset\x7d ..."

/-- The command that handles the configuration. -/
def configInterface : Interface where
  program := "specparity config"
  usage := configUsage
  help := helpText configUsage [
    "positional arguments:",
    "  \x7bshow,set,unset\x7d",
    "    show            Show all config values",
    "    set             Set a config value",
    "    unset           Reset a config key to default",
    "",
    "options:",
    "  -h, --help        show this help message and exit" ]
  options := [helpOption]
  operands := []
  choice? := some ⟨"config_action", ["show", "set", "unset"], false⟩

/-- The usage of the command that shows the configuration. -/
def showUsage : String := "usage: specparity config show [-h]"

/-- The command that shows the configuration. -/
def showInterface : Interface where
  program := "specparity config show"
  usage := showUsage
  help := helpText showUsage [
    "options:",
    "  -h, --help  show this help message and exit" ]
  options := [helpOption]
  operands := []
  choice? := none

/-- The usage of the command that sets a key. -/
def setUsage : String := "usage: specparity config set [-h] config_key config_value"

/-- The command that sets a key. -/
def setInterface : Interface where
  program := "specparity config set"
  usage := setUsage
  help := helpText setUsage [
    "positional arguments:",
    "  config_key    Config key name",
    "  config_value  Value to set",
    "",
    "options:",
    "  -h, --help    show this help message and exit" ]
  options := [helpOption]
  operands := ["config_key", "config_value"]
  choice? := none

/-- The usage of the command that unsets a key. -/
def unsetUsage : String := "usage: specparity config unset [-h] config_key"

/-- The command that unsets a key. -/
def unsetInterface : Interface where
  program := "specparity config unset"
  usage := unsetUsage
  help := helpText unsetUsage [
    "positional arguments:",
    "  config_key  Config key name",
    "",
    "options:",
    "  -h, --help  show this help message and exit" ]
  options := [helpOption]
  operands := ["config_key"]
  choice? := none

end SpecAudit.Command

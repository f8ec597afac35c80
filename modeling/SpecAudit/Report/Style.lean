/-!
# Colours

Reports are coloured on a terminal, unless colours are turned off.
-/

namespace SpecAudit.Report

/-- Whether reports are coloured. -/
structure Style where
  colored : Bool

/-- The style for a terminal or anything else, where colours may be turned off. -/
def Style.of (terminal noColor : Bool) : Style := ⟨terminal && !noColor⟩

/-- The code that ends a colour. -/
def resetCode : String := "\x1b[0m"

/-- The code that begins a colour, empty if there is no such colour. -/
def colorCode : String → String
  | "reset" => resetCode
  | "bold" => "\x1b[1m"
  | "dim" => "\x1b[2m"
  | "red" => "\x1b[31m"
  | "green" => "\x1b[32m"
  | "yellow" => "\x1b[33m"
  | "blue" => "\x1b[34m"
  | "cyan" => "\x1b[36m"
  | _ => ""

/-- A text in a colour, or as it is where reports are not coloured. -/
def Style.paint (style : Style) (color text : String) : String :=
  if style.colored then colorCode color ++ text ++ resetCode else text

end SpecAudit.Report

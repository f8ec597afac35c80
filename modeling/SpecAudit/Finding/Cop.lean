/-!
# Checks

The checks that a scan runs, and the severities of what they find.
-/

namespace SpecAudit

/-- A check that a scan runs. -/
inductive Cop where
  /-- Methods have a context for every branch. -/
  | sufficientContexts
  /-- Public methods are mentioned in their specs. -/
  | publicMethodHasSpec
  /-- Specs set nothing up eagerly. -/
  | noLetBang
  deriving DecidableEq

namespace Cop

/-- The name of a check. -/
def name : Cop → String
  | sufficientContexts => "SpecParity/SufficientContexts"
  | publicMethodHasSpec => "SpecParity/PublicMethodHasSpec"
  | noLetBang => "SpecParity/NoLetBang"

/-- Every check. -/
def all : List Cop := [sufficientContexts, publicMethodHasSpec, noLetBang]

/-- The names of the checks. -/
def names : List String := all.map name

end Cop

/-- How severe a finding is. -/
inductive Severity where
  | convention
  | warning
  | error
  deriving DecidableEq

namespace Severity

/-- The name of a severity. -/
def name : Severity → String
  | convention => "convention"
  | warning => "warning"
  | error => "error"

/-- The letter that stands for a severity in a report. -/
def letter : Severity → String
  | convention => "C"
  | warning => "W"
  | error => "E"

/-- The severity of a name. -/
def ofName? (name : String) : Option Severity :=
  [convention, warning, error].find? (·.name == name)

end Severity

end SpecAudit

import SpecAudit.Audit.Contexts
import SpecAudit.Audit.EagerSetup
import SpecAudit.Audit.Existence
import SpecAudit.Project.Discovery

/-!
# Scans

A scan finds the files below a path and runs the enabled checks on each.  Where the grammar is not
loaded only specs are checked; a file that cannot be checked is skipped.
-/

namespace SpecAudit.Audit

open SpecAudit.Config (Settings)
open SpecAudit.Project (findFiles sourceEndings)

/-- The findings in a file that has a text. -/
def scanText (workspace : Workspace) (settings : Settings) (path text : String) :
    Step (List Finding) := do
  if Path.isSpecFile path then
    if settings.enables Cop.noLetBang.name then
      ofDisk (findLetBangs workspace.project workspace.grammar path text)
    else return []
  else if !(← ofSettings (settings.covers path)) then return []
  else
    let sites ← lift ((methodsOf workspace.grammar text).mapError .grammar)
    let insufficient ←
      if settings.enables Cop.sufficientContexts.name then
        findInsufficientContexts workspace settings path sites
      else pure []
    let missing ←
      if settings.enables Cop.publicMethodHasSpec.name then
        findMissingSpecs workspace settings path sites
      else pure []
    return insufficient ++ missing

/-- The findings in a file, none if it cannot be read. -/
def scanFile (workspace : Workspace) (settings : Settings) (path : String) :
    Step (List Finding) := do
  let place ← ofDisk (workspace.project.resolvePath path)
  match workspace.project.text? (Project.pathOf place) with
  | none => return []
  | some text => scanText workspace settings path text

/-- What a scan has come to. -/
structure Report where
  findings : List Finding
  filesInspected : Nat
  filesSkipped : List String

namespace Report

/-- The report of a scan that has not begun. -/
def empty : Report := ⟨[], 0, []⟩

/-- The report with one more file that was skipped. -/
def skip (report : Report) (path : String) : Report :=
  { report with filesSkipped := report.filesSkipped ++ [path] }

/-- The report with one more file that was inspected. -/
def inspect (report : Report) (findings : List Finding) : Report :=
  { report with
    findings := report.findings ++ findings
    filesInspected := report.filesInspected + 1 }

/-- The report with its findings in order. -/
def sorted (report : Report) : Report :=
  { report with findings := report.findings.mergeSort Finding.precedes }

end Report

/-- Why a scan cannot go on. -/
inductive ScanFault where
  /-- The files cannot be found. -/
  | search (fault : Project.SearchFault)
  /-- An entry of the settings cannot be used. -/
  | settings (fault : Config.SettingsFault)

/-- The report and the index after one more file. -/
def scanNext (workspace : Workspace) (settings : Settings) (path : String)
    (report : Report) (index : SpecIndex) :
    Except Config.SettingsFault (Report × SpecIndex) :=
  if !workspace.grammar.isAvailable && !Path.isSpecFile path then
    .ok (report.skip path, index)
  else
    match (scanFile workspace settings path).run index with
    | (.ok findings, index) => .ok (report.inspect findings, index)
    | (.error (.settings fault), _) => .error fault
    | (.error _, index) => .ok (report.skip path, index)

/-- The report after the given files, in their order. -/
def scanAll (workspace : Workspace) (settings : Settings) :
    Report → SpecIndex → List String → Except Config.SettingsFault Report
  | report, _, [] => .ok report
  | report, index, path :: rest =>
    match scanNext workspace settings path report index with
    | .ok (report, index) => scanAll workspace settings report index rest
    | .error fault => .error fault

/-- The report on the source files that a path leads to and no pattern leaves out. -/
def scan (workspace : Workspace) (settings : Settings) (path : String)
    (exclusions : List Json) : Except ScanFault Report := do
  let files ←
    (findFiles workspace.project path sourceEndings exclusions).mapError ScanFault.search
  let index := SpecIndex.empty settings.specStructure.name
  let report ← (scanAll workspace settings .empty index files).mapError ScanFault.settings
  return report.sorted

/-- What a scan warns of before it begins. -/
def warning? (grammar : Grammar) : Option String :=
  if grammar.isAvailable then none
  else
    some ("  Ruby grammar unavailable (pip install tree-sitter-language-pack); "
      ++ "only spec files are checked.")

end SpecAudit.Audit

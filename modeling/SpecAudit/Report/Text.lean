import SpecAudit.Config.Settings
import SpecAudit.Finding.Basic
import SpecAudit.Report.Style
import SpecAudit.Text.Quoted

/-!
# Reports as text

One line for each finding, `file:line:column: C: check: sentence` with the column counted from one,
and a last line that sums up.  A finding may be given as an object, which has to have the fields
that its line shows.
-/

namespace SpecAudit.Report

open SpecAudit.Finding (pluralize)

/-- The colour of a severity. -/
def severityColor : Severity → String
  | .convention => "yellow"
  | .warning => "red"
  | .error => "red"

/-- The line for a finding; the column is shown as it is given. -/
def offenseLine (style : Style) (file line column : String) (severity : Severity)
    (detector summary : String) : String :=
  let location := style.paint "cyan" s!"{file}:{line}:{column}"
  let code := style.paint (severityColor severity) severity.letter
  s!"{location}: {code}: {detector}: {summary}"

/-- The line for a finding. -/
def findingLine (style : Style) (finding : Finding) : String :=
  offenseLine style finding.file (toString finding.line) (toString (finding.column + 1))
    finding.severity finding.detector finding.summary

/-- Why an object is not shown as a finding. -/
inductive RecordFault where
  /-- A field is missing. -/
  | missingField (name : String)
  /-- There is no severity of that name. -/
  | unknownSeverity (shown : String)
  /-- The column is not a number. -/
  | columnNotNumber

/-- The text that reports why an object is not shown. -/
def RecordFault.message : RecordFault → String
  | missingField name => name
  | unknownSeverity shown => s!"{shown} is not a valid Severity"
  | columnNotNumber => "the column is not a number"

/-- A field of an object. -/
def field (record : Fields) (name : String) : Except RecordFault Json :=
  match record.get? name with
  | some value => .ok value
  | none => .error (.missingField name)

/-- The severity that a value names. -/
def severityOf (value : Json) : Except RecordFault Severity :=
  match value with
  | .str name =>
    match Severity.ofName? name with
    | some severity => .ok severity
    | none => .error (.unknownSeverity (Text.quoted name))
  | value => .error (.unknownSeverity (Config.listedAs value))

/-- A column as it is shown, counted from one. -/
def shownColumn : Json → Except RecordFault String
  | .int column => .ok (toString (column + 1))
  | .bool true => .ok "2"
  | .bool false => .ok "1"
  | .real column => .ok (Json.shownDouble column.successor)
  | _ => .error .columnNotNumber

/-- The line for a finding that is given as an object. -/
def recordLine (style : Style) (record : Fields) : Except RecordFault String := do
  let severity ← severityOf (← field record "severity")
  let file ← field record "file"
  let line ← field record "line"
  let column ← shownColumn (← field record "column")
  let detector ← field record "detector"
  let summary ← field record "summary"
  return offenseLine style (Config.listedAs file) (Config.listedAs line) column severity
    (Config.listedAs detector) (Config.listedAs summary)

/-- The line that sums up how many files were inspected and how many findings there are. -/
def summaryLine (style : Style) (inspected : Int) (findings : Nat) : String :=
  let fileWord := pluralize "file" inspected
  let count := if findings = 0 then "no" else toString findings
  let offenseWord := pluralize "offense" findings
  style.paint (if findings = 0 then "green" else "red")
    s!"{inspected} {fileWord} inspected, {count} {offenseWord} detected"

/-- A report of lines for findings. -/
def text (style : Style) (inspected : Int) (lines : List String) : String :=
  let separator := if lines.isEmpty then [] else [""]
  String.intercalate "\n" (lines ++ separator ++ [summaryLine style inspected lines.length])

/-- A report of findings that are given as objects. -/
def recordsText (style : Style) (inspected : Int) (records : List Fields) :
    Except RecordFault String := do
  return text style inspected (← records.mapM (recordLine style))

/-- A report of findings as an object. -/
def payload (inspected : Int) (skipped : List Json) (findings : List Json) : Json :=
  .obj [ ("files_inspected", .int inspected), ("files_skipped", .arr skipped),
    ("count", .int findings.length), ("findings", .arr findings) ]

end SpecAudit.Report

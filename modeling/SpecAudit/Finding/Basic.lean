import SpecAudit.Finding.Cop
import SpecAudit.Finding.Message
import SpecAudit.Json.Basic
import SpecAudit.Project.Lookup

/-!
# Findings

What a check finds: which check, where, about which name, how severe, and in which words.  The
identifier of a finding is made of the check, the file, the name and the line.
-/

namespace SpecAudit

open SpecAudit.Project (DiskFault isAbsolute)

/-- What a check finds.  Lines count from one and columns from zero. -/
structure Finding where
  id : String
  detector : String
  file : String
  line : Int
  column : Int
  name : String
  severity : Severity
  summary : String
  detail : Fields

namespace Finding

/-- The identifier of a finding about a name, or about a line if the name is empty. -/
def identifier (detector file name : String) (line : Int) : String :=
  if name.isEmpty then s!"{detector}::{file}::{line}"
  else s!"{detector}::{file}::{name}::{line}"

/-- The path that a finding shows for a file: an absolute path is resolved and shown from the
project, a relative one is shown as it is. -/
def filePath (project : Project) (file : String) : Except DiskFault String :=
  if isAbsolute file then (project.resolvePath file).map project.shownPath
  else .ok (Path.normalized file)

/-- A finding about a name in a file. -/
def make (project : Project) (detector file name : String) (line column : Int)
    (summary : String) (severity : Severity) (detail : Fields) : Except DiskFault Finding := do
  let path ← filePath project file
  return {
    id := identifier detector path name line
    detector := detector
    file := path
    line := line
    column := column
    name := name
    severity := severity
    summary := summary
    detail := detail }

/-- A finding as an object. -/
def record (finding : Finding) : Fields :=
  [ ("id", .str finding.id), ("detector", .str finding.detector), ("file", .str finding.file),
    ("line", .int finding.line), ("column", .int finding.column), ("name", .str finding.name),
    ("severity", .str finding.severity.name), ("summary", .str finding.summary),
    ("detail", .obj finding.detail) ]

/-- Whether a finding stands before another in a report, or in the same place: findings are
ordered by file, line, column and check. -/
def precedes (left right : Finding) : Bool :=
  match compare left.file right.file with
  | .lt => true
  | .gt => false
  | .eq =>
    match compare left.line right.line with
    | .lt => true
    | .gt => false
    | .eq =>
      match compare left.column right.column with
      | .lt => true
      | .gt => false
      | .eq => compare left.detector right.detector != .gt

end Finding

/-- What is known about a method that has fewer contexts than branches. -/
structure Diagnostic where
  method : String
  branches : Int
  contexts : Int
  missing : Int
  severity : Severity
  file : String
  line : Int
  column : Int

namespace Diagnostic

/-- The sentence about the method. -/
def message (diagnostic : Diagnostic) : String :=
  Finding.contextsMessage diagnostic.method diagnostic.branches diagnostic.contexts

/-- The finding about the method. -/
def finding (project : Project) (diagnostic : Diagnostic) : Except DiskFault Finding :=
  Finding.make project Cop.sufficientContexts.name diagnostic.file diagnostic.method
    diagnostic.line diagnostic.column diagnostic.message diagnostic.severity
    [ ("branches", .int diagnostic.branches), ("contexts", .int diagnostic.contexts),
      ("missing", .int diagnostic.missing) ]

end Diagnostic

end SpecAudit

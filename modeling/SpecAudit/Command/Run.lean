import SpecAudit.Audit.Scan
import SpecAudit.Command.Arguments
import SpecAudit.Config.Change
import SpecAudit.Config.File
import SpecAudit.Project.Disk.Change
import SpecAudit.Report.Text

/-!
# Running a command

Reads the command line, loads the configuration, and scans or handles the configuration.  What a
run comes to is the project after it, what it writes to either stream, and how it ends.
-/

namespace SpecAudit.Command

open SpecAudit.Audit (Workspace ScanFault)
open SpecAudit.Config (Settings)
open SpecAudit.Report (Style)

/-- What ends a run before its time. -/
inductive Fault where
  /-- The configuration file cannot be looked up. -/
  | lookUp (fault : Project.DiskFault)
  /-- The configuration file cannot be read as data. -/
  | unreadable (fault : Json.ReadError)
  /-- The settings cannot be taken from the configuration. -/
  | settings (fault : Config.SettingsFault)
  /-- The files to be scanned cannot be found. -/
  | search (fault : Project.SearchFault)
  /-- A key cannot be set. -/
  | config (fault : Config.Fault)
  /-- The configuration cannot be saved. -/
  | disk (fault : Project.DiskFault)
  /-- There is no text where the key should be. -/
  | noKey
  /-- There is no text where the value should be. -/
  | noValue

/-- How a run ends. -/
inductive Ending where
  /-- With an exit status. -/
  | exit (status : Nat)
  /-- With a fault that no one has foreseen. -/
  | fault (fault : Fault)

/-- What a run comes to. -/
structure Outcome where
  project : Project
  output : String
  errors : String
  ending : Ending

/-- The directory and the name of the configuration file, as seen from the project. -/
def configFile : List String := [".specparity", "config.json"]

/-- The way to the configuration file of a project. -/
def configNames (project : Project) : List String :=
  project.root ++ configFile

/-- The bytes of the configuration file, if there is one. -/
def configContent? (project : Project) : Option ByteArray :=
  match SpecAudit.Project.entry? project.disk (configNames project) with
  | some (.file content) => some content
  | _ => none

/-- The configuration of a project, if the place of its file can be looked up and the file be read
as data. -/
def loadConfig (project : Project) : Except Fault Fields := do
  let _ ← (SpecAudit.Project.lookUp project.disk (configNames project)).mapError .lookUp
  (Config.load (configContent? project)).mapError .unreadable

theorem loadConfig_eq_ok_iff {project : Project} {fields : Fields} :
    loadConfig project = .ok fields ↔
      (∃ found, SpecAudit.Project.lookUp project.disk (configNames project) = .ok found) ∧
        Config.load (configContent? project) = .ok fields := by
  unfold loadConfig
  cases SpecAudit.Project.lookUp project.disk (configNames project) with
  | error fault =>
    constructor
    · intro loaded
      cases loaded
    · intro ⟨⟨found, looked⟩, _⟩
      cases looked
  | ok found =>
    cases Config.load (configContent? project) with
    | error fault =>
      constructor
      · intro loaded
        cases loaded
      · intro ⟨_, loaded⟩
        cases loaded
    | ok fields =>
      constructor
      · intro loaded
        cases loaded
        exact ⟨⟨found, rfl⟩, rfl⟩
      · intro ⟨_, loaded⟩
        cases loaded
        rfl

/-- The project with its configuration saved. -/
def saveConfig (fields : Fields) (project : Project) :
    Except SpecAudit.Project.DiskFault Project := do
  let content := (Config.saved fields).toUTF8
  let disk ← SpecAudit.Project.replaceFile content (configNames project) project.disk
  return { project with disk := disk }

/-! ## The configuration -/

/-- The lines that show a key. -/
def keyLines (style : Style) (fields : Fields) (key : Config.Key) : List String :=
  let value := (fields.get? key.name).getD key.default
  let marker := if value == key.default then "" else style.paint "yellow" "  (modified)"
  let padded := key.name.pushn ' ' (22 - key.name.length)
  let blank := "".pushn ' ' 22
  [ s!"  {padded} {value.compact}{marker}",
    style.paint "dim" s!"  {blank} {key.description}" ]

/-- The text that shows the configuration. -/
def showConfig (style : Style) (fields : Fields) : String :=
  textOfLines ([style.paint "bold" "\n  specparity config\n"]
    ++ Config.schema.flatMap (keyLines style fields) ++ [""])

/-- The outcome of a run that ends with a fault.  A fault in what was asked for is reported; any
other ends the run as it stands. -/
def failed (style : Style) (project : Project) (errors : String) (fault : Fault) : Outcome :=
  let reported := fun (message : String) =>
    ⟨project, "", errors ++ style.paint "red" s!"  {message}" ++ "\n", .exit 2⟩
  match fault with
  | .config (.unknownKey key) => reported (Config.Fault.unknownKey key).message
  | .config (.notTruth key text) => reported (Config.Fault.notTruth key text).message
  | .config (.notChoice key text choices) =>
    reported (Config.Fault.notChoice key text choices).message
  | fault => ⟨project, "", errors, .fault fault⟩

/-- Save a changed configuration and report what was done. -/
def commit (style : Style) (project : Project) (change : Except Fault (Fields × String)) :
    Outcome :=
  match change with
  | .error fault => failed style project "" fault
  | .ok (fields, report) =>
    match saveConfig fields project with
    | .error fault => failed style project "" (.disk fault)
    | .ok project => ⟨project, style.paint "green" report ++ "\n", "", .exit 0⟩

/-- The configuration with a key set, and the report of it. -/
def setKey (fields : Fields) (operands : List (Option String)) :
    Except Fault (Fields × String) :=
  match operands with
  | [some key, some text] => do
    let fields ← (Config.set key text fields).mapError Fault.config
    let value := ((fields.get? key).getD .null).compact
    return (fields, s!"  Set {key} = {value}")
  | [some key, none] =>
    match Config.key? key with
    | none => .error (.config (.unknownKey key))
    | some ⟨_, .choice choices, _, _⟩ => .error (.config (.notChoice key "[]" choices))
    | some _ => .error .noValue
  | _ => .error .noKey

/-- The configuration with a key unset, and the report of it. -/
def unsetKey (fields : Fields) (operands : List (Option String)) :
    Except Fault (Fields × String) :=
  match operands with
  | [some key] => do
    let fields ← (Config.unset key fields).mapError Fault.config
    return (fields, s!"  Reset {key} to default")
  | _ => .error .noKey

/-- Show the configuration, or set or unset a key of it. -/
def runConfig (style : Style) (project : Project) (fields : Fields) (parsed : Parsed) : Outcome :=
  match parsed.commands with
  | [_, "set"] => commit style project (setKey fields parsed.operands)
  | [_, "unset"] => commit style project (unsetKey fields parsed.operands)
  | _ => ⟨project, showConfig style fields, "", .exit 0⟩

/-! ## Scanning -/

/-- The settings where only some checks are asked for; a check that is disabled stays so. -/
def onlySettings (settings : Settings) (only : List String) : Settings :=
  if only.isEmpty then settings
  else settings.disabling (Cop.names.filter fun name => !only.contains name)

/-- The patterns given as options, and the configured ones that are not among them. -/
def exclusions (fields : Fields) (given : List String) : List Json :=
  let given := given.map Json.str
  let configured := match fields.get? "exclude" with
    | some (.arr items) => items
    | _ => []
  given ++ configured.filter fun item => !given.any (· == item)

/-- The report of a scan as data or as text. -/
def reportText (style : Style) (asData : Bool) (report : Audit.Report) : String :=
  if asData then
    (Report.payload report.filesInspected (report.filesSkipped.map .str)
      (report.findings.map fun finding => .obj finding.record)).indented
  else
    Report.text style report.filesInspected (report.findings.map (Report.findingLine style))

/-- The line that warns of what a scan cannot do, if there is anything. -/
def warningText (style : Style) (grammar : Grammar) : String :=
  match Audit.warning? grammar with
  | some warning => style.paint "yellow" warning ++ "\n"
  | none => ""

/-- Scan the files that a path leads to. -/
def runScan (workspace : Workspace) (style : Style) (fields : Fields) (parsed : Parsed) :
    Outcome :=
  let path := (parsed.texts "--path").getLastD "."
  let log := style.paint "dim" s!"  Scanning {path} for spec parity offenses" ++ "\n"
  let stopped := failed style workspace.project
  match Settings.ofConfig fields with
  | .error fault => stopped log (.settings fault)
  | .ok settings =>
    let settings := onlySettings settings (parsed.texts "--only")
    let patterns := exclusions fields (parsed.texts "--exclude")
    let errors := log ++ warningText style workspace.grammar
    match Audit.scan workspace settings path patterns with
    | .error (.search fault) => stopped errors (.search fault)
    | .error (.settings fault) => stopped errors (.settings fault)
    | .ok report =>
      let asData := !(parsed.texts "--json").isEmpty
      let status := if report.findings.isEmpty then 0 else 1
      ⟨workspace.project, reportText style asData report ++ "\n", errors, .exit status⟩

/-- The outcome of a command line that leads to no command. -/
def stop (project : Project) : Stop → Outcome
  | .help interface => ⟨project, interface.help, "", .exit 0⟩
  | .failure interface message =>
    let errors := textOfLines [interface.usage, s!"{interface.program}: error: {message}"]
    ⟨project, "", errors, .exit 2⟩

/-- Run the program on a command line. -/
def run (workspace : Workspace) (style : Style) (arguments : List String) : Outcome :=
  match readArguments arguments with
  | .error reason => stop workspace.project reason
  | .ok parsed =>
    match loadConfig workspace.project with
    | .error fault => failed style workspace.project "" fault
    | .ok fields =>
      match parsed.commands with
      | "scan" :: _ => runScan workspace style fields parsed
      | _ => runConfig style workspace.project fields parsed

end SpecAudit.Command

import SpecAudit.Command.Run
import SpecAudit.Proofs.Command.Arguments
import SpecAudit.Proofs.Config.Change
import SpecAudit.Proofs.Project.Replacement

/-!
# Changing the configuration from the command line

A run that is asked to set or to unset a key of the configuration changes that
one key or nothing.  If it succeeds, what is loaded from the configuration file
afterwards is what was loaded before, but for the key; if it is refused, the
disk is what it was.
-/

namespace SpecAudit.Command

open SpecAudit.Audit (Workspace)
open SpecAudit.Project (IsDirect)
open SpecAudit.Report (Style)

/-- What is asked of the configuration: to set a key from a text, or to give it
its default. -/
inductive Request where
  | set (key text : String)
  | unset (key : String)

namespace Request

/-- The key that is asked for. -/
def key : Request → String
  | set key _ => key
  | unset key => key

/-- The words by which a request is made. -/
def arguments : Request → List String
  | set key text => ["config", "set", key, text]
  | unset key => ["config", "unset", key]

/-- The value that a request gives to its key. -/
def Gives (before : Fields) (value : Json) : Request → Prop
  | set name text => ∃ key, Config.key? name = some key ∧
      Config.newValue key (before.get? name) text = .ok value
  | unset name => ∃ key, Config.key? name = some key ∧ value = key.default

/-- The configuration after a request. -/
def change (before : Fields) : Request → Except Config.Fault Fields
  | set key text => Config.set key text before
  | unset key => Config.unset key before

end Request

/-! ## Reading a request -/

section Read

variable {request : Request} {parsed : Parsed}

/-- The operands of a command that is given as many as it takes. -/
theorem operands_of_readArguments {interface : Interface} {command : String}
    {operands : List String}
    (among : command ∈ ["show", "set", "unset"])
    (word : classify configInterface.options command = .ok .operand)
    (plain : command ≠ "--")
    (isLeaf : readConfigCommand command operands = readLeaf interface operands)
    (noCommand : interface.choice? = none)
    (lengths : interface.operands.length = operands.length)
    (read : readArguments ("config" :: command :: operands) = .ok parsed) :
    parsed.operands = operands.map some ∧
      parsed.commands = ["config", command] := by
  rcases exists_of_bind_eq_ok read with ⟨outer, read, done⟩
  split at done
  · cases done
    rcases readLevel_command rfl rfl (by decide) rfl (by decide) read with
      ⟨middle, read, operandsOuter, commandsOuter⟩
    rcases readLevel_command rfl rfl among word plain read with
      ⟨inner, read, operandsMiddle, commandsMiddle⟩
    rw [isLeaf] at read
    rcases readLeaf_operands noCommand lengths read with ⟨given, none⟩
    rw [operandsOuter, operandsMiddle, given, commandsOuter, commandsMiddle,
      none]
    exact ⟨rfl, rfl⟩
  · cases done

/-- The operands that a request has. -/
def Request.operands : Request → List (Option String)
  | set key text => [some key, some text]
  | unset key => [some key]

/-- The name of the command that makes a request. -/
def Request.command : Request → String
  | set _ _ => "set"
  | unset _ => "unset"

/-- The words of a request are read as that request. -/
theorem request_of_readArguments
    (read : readArguments request.arguments = .ok parsed) :
    parsed.operands = request.operands ∧
      parsed.commands = ["config", request.command] := by
  cases request with
  | set key text =>
      have isLeaf : readConfigCommand "set" [key, text] =
          readLeaf setInterface [key, text] := rfl
      exact operands_of_readArguments (by decide) rfl (by decide) isLeaf
        (by rfl) (by rfl) read
  | unset key =>
      have isLeaf : readConfigCommand "unset" [key] =
          readLeaf unsetInterface [key] := rfl
      exact operands_of_readArguments (by decide) rfl (by decide) isLeaf
        (by rfl) (by rfl) read

end Read

/-! ## Runs that are refused -/

section Refused

variable (workspace : Workspace) (style : Style)

theorem failed_project (project : Project) (errors : String) (fault : Fault) :
    (failed style project errors fault).project = project := by
  unfold failed
  split <;> rfl

theorem failed_ending (project : Project) (errors : String) (fault : Fault) :
    (failed style project errors fault).ending ≠ .exit 0 := by
  unfold failed
  split <;> simp

theorem stop_project (project : Project) (reason : Stop) :
    (stop project reason).project = project := by
  cases reason <;> rfl

/-- A scan leaves the project as it is. -/
theorem runScan_project (fields : Fields) (parsed : Parsed) :
    (runScan workspace style fields parsed).project = workspace.project := by
  unfold runScan
  dsimp only
  split
  · exact failed_project ..
  · split
    · exact failed_project ..
    · exact failed_project ..
    · rfl

theorem commit_project (project : Project)
    (change : Except Fault (Fields × String)) :
    (commit style project change).project = project ∨
      (commit style project change).ending = .exit 0 := by
  unfold commit
  split
  · exact .inl (failed_project ..)
  · split
    · exact .inl (failed_project ..)
    · exact .inr rfl

/-- A run that does not succeed leaves the project as it is. -/
theorem run_project (arguments : List String) :
    (run workspace style arguments).project = workspace.project ∨
      (run workspace style arguments).ending = .exit 0 := by
  unfold run
  split
  · exact .inl (stop_project ..)
  · split
    · exact .inl (failed_project ..)
    · split
      · exact .inl (runScan_project ..)
      · unfold runConfig
        split
        · exact commit_project ..
        · exact commit_project ..
        · exact .inl rfl

end Refused

/-! ## Requests that succeed -/

/-- Whether a run ends with the exit status of success. -/
def Outcome.succeeds (outcome : Outcome) : Bool :=
  match outcome.ending with
  | .exit 0 => true
  | _ => false

theorem ending_of_succeeds {outcome : Outcome}
    (succeeds : outcome.succeeds = true) : outcome.ending = .exit 0 := by
  unfold Outcome.succeeds at succeeds
  split at succeeds
  · assumption
  · cases succeeds

section Done

variable {workspace : Workspace} {style : Style} {request : Request}

/-- A change of the configuration that succeeds is saved. -/
theorem exists_of_commit {project : Project}
    {change : Except Fault (Fields × String)}
    (done : (commit style project change).ending = .exit 0) :
    ∃ after report, change = .ok (after, report) ∧
      saveConfig after project = .ok (commit style project change).project := by
  unfold commit at done ⊢
  split at done
  · exact absurd done (failed_ending _ _ _ _)
  · split at done
    · exact absurd done (failed_ending _ _ _ _)
    · rename_i saved
      exact ⟨_, _, rfl, saved⟩

/-- A request that succeeds changes what was loaded and saves the result. -/
theorem exists_of_run {parsed : Parsed}
    (read : readArguments request.arguments = .ok parsed)
    (done : (run workspace style request.arguments).ending = .exit 0) :
    ∃ before after,
      Config.load (configContent? workspace.project) = .ok before ∧
      request.change before = .ok after ∧
      saveConfig after workspace.project =
        .ok (run workspace style request.arguments).project := by
  rcases request_of_readArguments read with ⟨operands, commands⟩
  unfold run at done ⊢
  rw [read] at done ⊢
  dsimp only at done ⊢
  cases loaded : loadConfig workspace.project with
  | error fault =>
      rw [loaded] at done
      exact absurd done (failed_ending _ _ _ _)
  | ok before =>
      rw [loaded] at done
      dsimp only at done ⊢
      unfold runConfig at done ⊢
      rw [commands, operands] at done ⊢
      rw [(loadConfig_eq_ok_iff.mp loaded).2]
      refine ⟨before, ?_⟩
      rcases request with ⟨key, text⟩ | ⟨key⟩
      all_goals
        rcases exists_of_commit done with ⟨_, _, changed, saved⟩
        rcases exists_of_bind_eq_ok changed with ⟨_, asked, made⟩
        cases made
        exact ⟨_, rfl, eq_ok_of_mapError_eq_ok asked, saved⟩

/-- A request that changes the configuration gives a value to its key. -/
theorem Request.exists_of_change {before after : Fields}
    (loadable : Config.IsLoadable before)
    (changed : request.change before = .ok after) :
    Config.IsLoadable after ∧ ∃ value, request.Gives before value ∧
      Config.Changed request.key value before after := by
  cases request with
  | set name text =>
      rcases Config.exists_of_set loadable changed with
        ⟨key, value, found, made, loadable, changed⟩
      exact ⟨loadable, value, ⟨key, found, made⟩, changed⟩
  | unset name =>
      rcases Config.exists_of_unset loadable changed with
        ⟨key, found, loadable, changed⟩
      exact ⟨loadable, key.default, ⟨key, found, rfl⟩, changed⟩

/-- Whether the configuration file of a project has a place of its own: the
directory of the project is there, and the way to the file does not run through
the file.  The directory of the file, or the file, or both may be links. -/
structure HasConfigPlace (project : Project) : Prop where
  root : ∃ entries, project.disk.at? project.root = some (.directory entries)
  plain : ".." ∉ project.root
  direct : IsDirect project.disk project.root ".specparity" "config.json"

/-- What is saved is what is loaded. -/
theorem load_of_saveConfig {project project' : Project} {fields : Fields}
    (place : HasConfigPlace project) (loadable : Config.IsLoadable fields)
    (saved : saveConfig fields project = .ok project') :
    Config.load (configContent? project') = .ok fields := by
  rcases exists_of_bind_eq_ok saved with ⟨disk, put, made⟩
  cases made
  rcases place.root with ⟨entries, root⟩
  have found := Project.entry?_of_replaceFile root place.plain (by decide)
    (by decide) place.direct put
  unfold configContent?
  dsimp only [configNames, configFile] at found ⊢
  rw [found]
  exact Config.load_saved loadable

/-- A project whose configuration has a value of a wrong type and a key that is
not known. -/
def panelWorkspace : Workspace where
  project := {
    disk := .directory [("panel", .directory [(".specparity", .directory
      [("config.json",
        .file "\x7b\"exclude\": 5, \"team\": [1, null]\x7d".toUTF8)])])]
    root := ["panel"] }
  grammar := .missing

end Done

end SpecAudit.Command

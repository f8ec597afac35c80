import SpecAudit.Command.Run
import SpecAudit.Proofs.Audit.Scan
import SpecAudit.Proofs.Config.Settings

/-!
# Disabled checks

A disabled check takes its own findings out of the report of a scan, and no
others.  It skips the same files, but for one kind: a source whose spec cannot be
looked up is inspected by a scan that needs no lookup for it.  Where only some
checks are asked for, those of them report that are not disabled.
-/

namespace SpecAudit.Config.Settings

variable {settings : Settings}

/-- Disabling more checks leaves those enabled that are not among them. -/
theorem enables_disabling (cops : List String) (cop : String) :
    (settings.disabling cops).enables cop =
      (settings.enables cop && !cops.contains cop) := by
  rw [Bool.eq_iff_iff, enables_iff, Bool.and_eq_true, enables_iff, disabling,
    str_mem_distinctEntries]
  simp

end SpecAudit.Config.Settings

namespace SpecAudit.Audit

open SpecAudit.Config (Settings)
open SpecAudit.Project (findFiles sourceEndings)

variable {settings : Settings}

theorem mem_names (cop : Cop) : cop.name ∈ Cop.names := by
  cases cop <;> decide

/-- The checks that report are those asked for that are not disabled. -/
theorem enables_onlySettings (settings : Settings) {only : List String}
    (some : only ≠ []) (cop : Cop) :
    (Command.onlySettings settings only).enables cop.name =
      (only.contains cop.name && settings.enables cop.name) := by
  have asked : only.isEmpty = false := by simpa using some
  have others : (Cop.names.filter fun name => !only.contains name).contains
      cop.name = !only.contains cop.name := by
    rw [Bool.eq_iff_iff, List.contains_iff_mem, List.mem_filter]
    exact and_iff_right (mem_names cop)
  rw [Command.onlySettings, asked, if_neg Bool.false_ne_true,
    Settings.enables_disabling, others, Bool.not_not, Bool.and_comm]

theorem enables_disablingOnly_map (settings : Settings)
    (disabled : List String) (cop : String) :
    (settings.disablingOnly (disabled.map .str)).enables cop =
      !disabled.contains cop := by
  rw [Bool.eq_iff_iff, Settings.enables_iff, Settings.disablingOnly]
  simp

section Reports

variable {workspace : Workspace} {part full : Report}

/-- The report with some of its findings. -/
def Report.keeping (report : Report) (reports : Finding → Bool) : Report :=
  { report with findings := report.findings.filter reports }

open scoped Classical in
/-- Whether a report is the part of a full one that some checks make: it has
their findings, in the same order, and skips the same files but those that are
spared a lookup, which are inspected instead. -/
structure Report.IsPartOf (part full : Report) (reports : Finding → Bool)
    (isSpared : String → Prop) : Prop where
  findings : part.findings = full.findings.filter reports
  skips : part.filesSkipped =
    full.filesSkipped.filter fun file => ¬ isSpared file
  files : part.filesInspected + part.filesSkipped.length =
    full.filesInspected + full.filesSkipped.length

/-- Where no file is spared a lookup, only the findings differ. -/
theorem Report.IsPartOf.eq {reports : Finding → Bool}
    {isSpared : String → Prop} (isPart : part.IsPartOf full reports isSpared)
    (unspared : ∀ file ∈ full.filesSkipped, ¬ isSpared file) :
    part = full.keeping reports := by
  have skipped : part.filesSkipped = full.filesSkipped :=
    isPart.skips.trans (List.filter_eq_self.mpr (by simpa using unspared))
  have inspected : part.filesInspected = full.filesInspected := by
    have files := isPart.files
    rw [skipped] at files
    exact Nat.add_right_cancel files
  cases part
  cases skipped
  cases inspected
  cases isPart.findings
  rfl

theorem reportAlone_files (files : List String) :
    (reportAlone workspace settings files).filesInspected +
      (reportAlone workspace settings files).filesSkipped.length =
        files.length := by
  rw [reportAlone, List.countP_eq_length_filter, Nat.add_comm]
  exact (List.length_eq_length_filter_add _).symm

variable (textual : settings.IsTextual)

include textual

/-- Every finding of a report is one of a check. -/
theorem exists_cop_of_mem_findings {files : List String} {finding : Finding}
    (member : finding ∈ (reportAlone workspace settings files).findings) :
    ∃ cop : Cop, finding.detector = cop.name := by
  rw [reportAlone, List.mem_mergeSort] at member
  rcases List.mem_flatMap.mp member with ⟨path, -, member⟩
  rcases exists_of_mem_findingsAlone textual path member with
    ⟨findings, whole, made⟩
  exact (comesTo_scannedAlone textual path).checked findings whole finding made

/-- Disabling checks leaves the part of a report that the others make. -/
theorem isPartOf_reportAlone (disabled : List Json) (files : List String)
    {reports : Finding → Bool}
    (same : ∀ cop : Cop, ∀ finding : Finding, finding.detector = cop.name →
      (settings.disablingOnly disabled).enables finding.detector =
        reports finding) :
    (reportAlone workspace (settings.disablingOnly disabled) files).IsPartOf
      (reportAlone workspace (settings.disablingOnly []) files) reports
      (IsSpared workspace (settings.disablingOnly disabled)) where
  findings := by
    have found : findingsAlone workspace (settings.disablingOnly disabled) =
        fun path => enabledFindings disabled settings
          (findingsAlone workspace (settings.disablingOnly []) path) :=
      funext fun path => findingsAlone_disablingOnly textual path disabled
    have enabled : (reportAlone workspace (settings.disablingOnly disabled)
        files).findings = enabledFindings disabled settings
          (reportAlone workspace (settings.disablingOnly [])
            files).findings := by
      simp only [reportAlone, found, enabledFindings,
        filter_mergeSort Finding.precedes_trans Finding.precedes_total,
        List.filter_flatMap]
    rw [enabled]
    refine List.filter_congr fun finding member => ?_
    rcases exists_cop_of_mem_findings (textual.disablingOnly []) member with
      ⟨cop, named⟩
    exact same cop finding named
  skips := by
    rw [reportAlone, reportAlone, List.filter_filter]
    refine List.filter_congr fun file _ => ?_
    rw [Bool.eq_iff_iff, isSkipped_disablingOnly textual]
    simp [and_comm]
  files := (reportAlone_files files).trans (reportAlone_files files).symm

/-- Scans that disable different checks find the same files. -/
theorem exists_scan_disablingOnly {path : String} {isFile : Bool}
    (asked : workspace.project.hasFile path = .ok isFile)
    (patterns : List String) :
    ∃ files, ∀ disabled : List Json,
      scan workspace (settings.disablingOnly disabled) path
          (patterns.map .str) =
        .ok (reportAlone workspace (settings.disablingOnly disabled) files) := by
  rcases Project.exists_findFiles asked sourceEndings patterns with
    ⟨files, -, found, -⟩
  refine ⟨files, fun disabled => ?_⟩
  rcases exists_scan (textual.disablingOnly disabled) asked patterns with
    ⟨_, -, found', -, scanned⟩
  cases found.symm.trans found'
  exact scanned

end Reports

/-- Where some checks are asked for, the others are disabled. -/
theorem onlySettings_eq_disablingOnly (settings : Settings)
    {only : List String} (some : only ≠ []) :
    Command.onlySettings settings only =
      settings.disablingOnly
        (Command.onlySettings settings only).disabledCops := by
  have asked : only.isEmpty = false := by simpa using some
  rw [Command.onlySettings, asked]
  rfl

/-- Whether a scan with fewer checks reports its part of a full report, and
just that where the spec of every file that is skipped can be looked up. -/
def ReportsPartOf (workspace : Workspace) (settings : Settings) (path : String)
    (patterns : List String) (full : Report) (reports : Finding → Bool) :
    Prop :=
  ∃ part, scan workspace settings path (patterns.map .str) = .ok part ∧
    part.IsPartOf full reports (IsSpared workspace settings) ∧
    ((∀ file ∈ full.filesSkipped, ∀ fault, ¬ IsBarred workspace file fault) →
      part = full.keeping reports)

theorem IsSpared.exists_isBarred {workspace : Workspace} {path : String}
    (spared : IsSpared workspace settings path) :
    ∃ fault, IsBarred workspace path fault := by
  rcases spared with ⟨place, text, -, -, spared⟩
  exact spared.barred

theorem reportsPartOf_disablingOnly {workspace : Workspace}
    (textual : settings.IsTextual) {path : String} {patterns files : List String}
    {disabled : List Json} {reports : Finding → Bool}
    (scanned : scan workspace (settings.disablingOnly disabled) path
        (patterns.map .str) =
      .ok (reportAlone workspace (settings.disablingOnly disabled) files))
    (same : ∀ cop : Cop, ∀ finding : Finding, finding.detector = cop.name →
      (settings.disablingOnly disabled).enables finding.detector =
        reports finding) :
    ReportsPartOf workspace (settings.disablingOnly disabled) path patterns
      (reportAlone workspace (settings.disablingOnly []) files) reports := by
  have isPart : Report.IsPartOf (reportAlone workspace _ files) _ _ _ :=
    isPartOf_reportAlone textual disabled files same
  refine ⟨_, scanned, isPart, fun unbarred => isPart.eq ?_⟩
  intro file listed spared
  rcases spared.exists_isBarred with ⟨fault, barred⟩
  exact unbarred file listed fault barred

/--
Disabling checks leaves the findings of the others, in their order.  It skips
the same files and inspects as many, unless a source whose spec cannot be looked
up is spared the lookup; such a source is inspected, with no finding.  Where some
checks are asked for, those of them report that are not disabled.  A path that
cannot be looked up ends the scan whatever is disabled.
-/
theorem scan_disabled_eq_filter (workspace : Workspace)
    (textual : settings.IsTextual) (path : String) (patterns : List String) :
    (∀ fault, workspace.project.hasFile path = .error fault →
      ∀ disabled : List Json,
        scan workspace (settings.disablingOnly disabled) path
            (patterns.map .str) = .error (.search (.path fault))) ∧
    ∀ isFile, workspace.project.hasFile path = .ok isFile →
      ∃ full,
        scan workspace (settings.disablingOnly []) path (patterns.map .str) =
            .ok full ∧
          (∀ disabled : List String,
            ReportsPartOf workspace
              (settings.disablingOnly (disabled.map .str)) path patterns full
              fun finding => !disabled.contains finding.detector) ∧
          ∀ only : List String, only ≠ [] →
            (∀ cop : Cop,
              (Command.onlySettings settings only).enables cop.name =
                (only.contains cop.name && settings.enables cop.name)) ∧
            ReportsPartOf workspace (Command.onlySettings settings only) path
              patterns full fun finding => only.contains finding.detector &&
                settings.enables finding.detector := by
  refine ⟨fun fault refused disabled => scan_of_error _ refused _,
    fun isFile asked => ?_⟩
  rcases exists_scan_disablingOnly textual asked patterns with ⟨files, scanned⟩
  refine ⟨_, scanned [], fun disabled => ?_, fun only some =>
    ⟨enables_onlySettings settings some, ?_⟩⟩
  · exact reportsPartOf_disablingOnly textual (scanned _)
      fun _ _ _ => enables_disablingOnly_map settings disabled _
  · rw [onlySettings_eq_disablingOnly settings some]
    refine reportsPartOf_disablingOnly textual (scanned _) ?_
    intro cop finding named
    rw [named, ← onlySettings_eq_disablingOnly settings some,
      enables_onlySettings settings some]

/-- A project of a source whose spec may not be looked up. -/
def closedProject : Project where
  disk := .directory [
    ("app", .directory [("models", .directory
      [("toggle.rb", .file .empty)])]),
    ("spec", .closedDirectory)]
  root := []

/-- The project with a grammar that finds nothing in its source. -/
def closedWorkspace : Workspace where
  project := closedProject
  grammar := .loaded fun _ => default

theorem findFiles_closedProject :
    findFiles closedProject "." sourceEndings [] =
      .ok ["app/models/toggle.rb"] :=
  Project.findFiles_top (by decide) (List.pairwise_singleton _ _)

theorem scan_closedWorkspace (disabled : List Json) :
    scan closedWorkspace (Settings.standard.disablingOnly disabled) "." [] =
      .ok (reportAlone closedWorkspace (Settings.standard.disablingOnly disabled)
        ["app/models/toggle.rb"]) := by
  have asked : closedWorkspace.project.hasFile "." = .ok false := rfl
  have usable : (Settings.standard.disablingOnly disabled).IsTextual :=
    Settings.IsTextual.standard.disablingOnly disabled
  rcases exists_scan usable asked [] with ⟨files, -, found, -, scanned⟩
  cases findFiles_closedProject.symm.trans found
  exact scanned

/-- The one finding is gone or kept with the check that makes it.  A source whose
spec may not be looked up is skipped, and inspected once no check looks it up. -/
theorem scan_disabled_eq_filter_eager :
    let workspace : Workspace := ⟨eagerProject, .missing⟩
    let eager := Cop.noLetBang.name
    let existence := Cop.publicMethodHasSpec.name
    Settings.standard.IsTextual ∧ [eager] ≠ [] ∧
      (∃ full without alone,
        scan workspace .standard "." [] = .ok full ∧
          full.findings.map (·.detector) = [eager] ∧
          scan workspace (Settings.standard.disablingOnly [.str eager]) "." [] =
            .ok without ∧ without.findings = [] ∧
          scan workspace (Command.onlySettings .standard [eager]) "." [] =
            .ok alone ∧ alone.findings = full.findings) ∧
      ∃ full part,
        scan closedWorkspace .standard "." [] = .ok full ∧
          full.filesSkipped = ["app/models/toggle.rb"] ∧
          scan closedWorkspace
              (Settings.standard.disablingOnly [.str existence]) "." [] =
            .ok part ∧ part.filesInspected = 1 ∧ part.filesSkipped = [] := by
  intro workspace eager existence
  have detected :
      (["app/models/toggle.rb", "spec/models/toggle_spec.rb"].flatMap
        (findingsAlone workspace .standard)).map (·.detector) = [eager] := by
    decide +kernel
  have skipped : ["app/models/toggle.rb"].filter (isSkipped closedWorkspace
      (Settings.standard.disablingOnly [])) = ["app/models/toggle.rb"] := by
    decide +kernel
  have inspected : ["app/models/toggle.rb"].filter (isSkipped closedWorkspace
      (Settings.standard.disablingOnly [.str existence])) = [] := by
    decide +kernel
  have usable : Settings.standard.IsTextual := .standard
  refine ⟨usable, by simp, ?_, ?_⟩
  · have asked : workspace.project.hasFile "." = .ok false := rfl
    rcases exists_scan usable asked [] with ⟨files, -, found, -, reported⟩
    cases findFiles_eagerProject.symm.trans found
    rcases List.map_eq_singleton_iff.mp detected with ⟨finding, made, same⟩
    rcases (scan_disabled_eq_filter workspace usable "." []).2 false asked with
      ⟨full, scanned, disabling, asking⟩
    have findings : full.findings = [finding] := by
      rw [Except.ok.inj (scanned.symm.trans reported), reportAlone, made,
        List.mergeSort_singleton]
    rcases disabling [eager] with ⟨without, disabled, isPart, -⟩
    rcases (asking [eager] (by simp)).2 with ⟨alone, only, isPart', -⟩
    have enabled : Settings.standard.enables eager = true := by decide
    refine ⟨full, without, alone, scanned, ?_, disabled, ?_, only, ?_⟩
    · rw [findings, List.map_singleton, same]
    · rw [isPart.findings, findings]
      simp [same]
    · rw [isPart'.findings, findings]
      simp [same, enabled]
  · rcases (scan_disabled_eq_filter closedWorkspace usable "." []).2 false rfl
      with ⟨full, scanned, disabling, -⟩
    rcases disabling [existence] with ⟨part, disabled, isPart, -⟩
    have whole := Except.ok.inj (scanned.symm.trans (scan_closedWorkspace []))
    have rest := Except.ok.inj
      (disabled.symm.trans (scan_closedWorkspace [.str existence]))
    have skips : full.filesSkipped = ["app/models/toggle.rb"] := by
      rw [whole, reportAlone]
      dsimp only
      exact skipped
    have none : part.filesSkipped = [] := by
      rw [rest, reportAlone]
      dsimp only
      exact inspected
    have one : part.filesInspected + part.filesSkipped.length = 1 := by
      rw [rest, reportAlone_files]
      rfl
    rw [none] at one
    exact ⟨full, part, scanned, skips, disabled, one, none⟩

end SpecAudit.Audit

import SpecAudit.Proofs.Audit.FileScan
import SpecAudit.Proofs.Finding.Order
import SpecAudit.Proofs.Project.Discovery

/-!
# Scans, file by file

A scan carries an index of spec documents from file to file.  As the index stays
up to date, a file comes to the same whatever was scanned before it: the report
of a scan is put together from what its files come to alone.
-/

namespace SpecAudit.Audit

open SpecAudit.Config (Settings)
open SpecAudit.Project (findFiles sourceEndings)

/-! ## Files alone -/

/-- What the scan of a file gives from an index that has taken in nothing. -/
def scannedAlone (workspace : Workspace) (settings : Settings) (path : String) :
    Except Fault (List Finding) :=
  (outcome (scanFile workspace settings path)
    (.empty settings.specStructure.name)).1

/-- The findings in a file that is scanned alone, none if that fails. -/
def findingsAlone (workspace : Workspace) (settings : Settings)
    (path : String) : List Finding :=
  match scannedAlone workspace settings path with
  | .ok findings => findings
  | .error _ => []

/--
Whether a file is skipped: a source while the grammar is not loaded, or a file
whose scan fails otherwise than by an entry of the settings.
-/
def isSkipped (workspace : Workspace) (settings : Settings) (path : String) :
    Bool :=
  !workspace.grammar.isAvailable && !Path.isSpecFile path ||
    match scannedAlone workspace settings path with
    | .ok _ => false
    | .error fault => fault.skipsFile

variable {workspace : Workspace} {settings : Settings}

theorem enabledFindings_nil (settings : Settings) (findings : List Finding) :
    enabledFindings [] settings findings = findings :=
  List.filter_eq_self.mpr fun _ _ => rfl

/-- A scan that disables nothing is spared no lookup. -/
theorem not_isSpared_disablingOnly_nil (path : String) :
    ¬ IsSpared workspace (settings.disablingOnly []) path := by
  rintro ⟨place, text, -, -, spared⟩
  cases spared.unchecked

theorem IsSpared.isAvailable {path : String}
    (spared : IsSpared workspace settings path) :
    workspace.grammar.isAvailable = true := by
  rcases spared with ⟨place, text, -, -, spared⟩
  rcases spared.unneeded with ⟨sites, parsed, -⟩
  exact isAvailable_of_methodsOf parsed

section Alone

variable (textual : settings.IsTextual) (path : String)

include textual

theorem comesTo_scannedAlone :
    ComesTo workspace settings.specStructure settings path
      (fun disabled =>
        IsSpared workspace (settings.disablingOnly disabled) path)
      (scanFile workspace · path)
      (scannedAlone workspace (settings.disablingOnly []) path) := by
  rcases exists_scanFile textual path with ⟨result, comes⟩
  have alone :
      scannedAlone workspace (settings.disablingOnly []) path = result := by
    refine (comes.gives [] (not_isSpared_disablingOnly_nil path) _
      SpecIndex.isCurrent_empty).1.trans ?_
    cases result with
    | ok findings => rw [Except.map, enabledFindings_nil]
    | error fault => rfl
  rw [alone]
  exact comes

/-- Disabling checks leaves the findings of the others in a file. -/
theorem scannedAlone_disablingOnly (disabled : List Json)
    (unspared : ¬ IsSpared workspace (settings.disablingOnly disabled) path) :
    scannedAlone workspace (settings.disablingOnly disabled) path =
      (scannedAlone workspace (settings.disablingOnly []) path).map
        (enabledFindings disabled settings) :=
  ((comesTo_scannedAlone textual path).gives disabled unspared _
    SpecIndex.isCurrent_empty).1

/-- Where a scan is spared the lookup for which a file is skipped, nothing is
found in the file. -/
theorem scannedAlone_of_isSpared (disabled : List Json)
    (spared : IsSpared workspace (settings.disablingOnly disabled) path) :
    (∃ fault, scannedAlone workspace (settings.disablingOnly []) path =
      .error fault) ∧
      scannedAlone workspace (settings.disablingOnly disabled) path =
        .ok [] := by
  rcases (comesTo_scannedAlone textual path).spares disabled spared with
    ⟨failed, gives⟩
  exact ⟨failed, (gives _ SpecIndex.isCurrent_empty).1⟩

theorem findingsAlone_disablingOnly (disabled : List Json) :
    findingsAlone workspace (settings.disablingOnly disabled) path =
      enabledFindings disabled settings
        (findingsAlone workspace (settings.disablingOnly []) path) := by
  unfold findingsAlone
  by_cases spared : IsSpared workspace (settings.disablingOnly disabled) path
  · rcases scannedAlone_of_isSpared textual path disabled spared with
      ⟨⟨fault, failed⟩, none⟩
    rw [none, failed]
    rfl
  · rw [scannedAlone_disablingOnly textual path disabled spared]
    cases scannedAlone workspace (settings.disablingOnly []) path <;> rfl

/-- Disabling checks skips the same files but those that are spared a lookup. -/
theorem isSkipped_disablingOnly (disabled : List Json) :
    isSkipped workspace (settings.disablingOnly disabled) path = true ↔
      isSkipped workspace (settings.disablingOnly []) path = true ∧
        ¬ IsSpared workspace (settings.disablingOnly disabled) path := by
  unfold isSkipped
  by_cases spared : IsSpared workspace (settings.disablingOnly disabled) path
  · rcases scannedAlone_of_isSpared textual path disabled spared with ⟨-, none⟩
    simp [none, spared, spared.isAvailable]
  · rw [scannedAlone_disablingOnly textual path disabled spared, and_iff_left spared]
    cases scannedAlone workspace (settings.disablingOnly []) path <;> rfl

/-- A file comes to what it comes to alone, or is skipped for the same fault as
while no check is disabled. -/
theorem gives_scanFile :
    Gives workspace settings.specStructure (scanFile workspace settings path)
      (scannedAlone workspace settings path) := by
  -- The settings disable just what they disable, so they are an instance.
  have comes : ComesTo workspace _ settings path _ _ _ :=
    comesTo_scannedAlone textual path
  by_cases spared : IsSpared workspace settings path
  · have gives : Gives workspace settings.specStructure
        (scanFile workspace settings path) (.ok []) :=
      (comes.spares settings.disabledCops spared).2
    have none : scannedAlone workspace settings path = .ok [] :=
      (scannedAlone_of_isSpared textual path settings.disabledCops spared).2
    rw [none]
    exact gives
  · have gives : Gives workspace settings.specStructure
        (scanFile workspace settings path) _ :=
      comes.gives settings.disabledCops spared
    rw [← scannedAlone_disablingOnly textual path settings.disabledCops
      spared] at gives
    exact gives

theorem skipsFile_of_scannedAlone {fault : Fault}
    (failed : scannedAlone workspace settings path = .error fault) :
    fault.skipsFile = true := by
  by_cases spared : IsSpared workspace settings path
  · have none : scannedAlone workspace settings path = .ok [] :=
      (scannedAlone_of_isSpared textual path settings.disabledCops spared).2
    cases failed.symm.trans none
  · have same : scannedAlone workspace settings path = _ :=
      scannedAlone_disablingOnly textual path settings.disabledCops spared
    rw [failed] at same
    cases whole : scannedAlone workspace (settings.disablingOnly []) path with
    | ok findings =>
        rw [whole] at same
        cases same
    | error fault' =>
        rw [whole] at same
        cases same
        exact (comesTo_scannedAlone textual path).skips _ whole

/-- Every finding is one that is made while no check is disabled. -/
theorem exists_of_mem_findingsAlone {finding : Finding}
    (member : finding ∈ findingsAlone workspace settings path) :
    ∃ findings,
      scannedAlone workspace (settings.disablingOnly []) path = .ok findings ∧
        finding ∈ findings := by
  have same : findingsAlone workspace settings path = _ :=
    findingsAlone_disablingOnly textual path settings.disabledCops
  rw [same, enabledFindings] at member
  have made := (List.mem_filter.mp member).1
  rw [findingsAlone] at made
  cases whole : scannedAlone workspace (settings.disablingOnly []) path with
  | ok findings =>
      rw [whole] at made
      exact ⟨findings, rfl, made⟩
  | error fault =>
      rw [whole] at made
      cases made

theorem filePath_of_mem_findingsAlone {finding : Finding}
    (member : finding ∈ findingsAlone workspace settings path) :
    Finding.filePath workspace.project path = .ok finding.file := by
  rcases exists_of_mem_findingsAlone textual path member with
    ⟨findings, whole, made⟩
  exact (comesTo_scannedAlone textual path).shown findings whole finding made

/-- Nothing is found in a file that is skipped. -/
theorem findingsAlone_of_isSkipped
    (skipped : isSkipped workspace settings path = true) :
    findingsAlone workspace settings path = [] := by
  refine List.eq_nil_iff_forall_not_mem.mpr fun finding member => ?_
  rcases exists_of_mem_findingsAlone textual path member with
    ⟨findings, whole, made⟩
  rcases Bool.or_eq_true_iff.mp skipped with unread | failed
  · rw [Bool.and_eq_true, Bool.not_eq_true', Bool.not_eq_true'] at unread
    have silent := (comesTo_scannedAlone textual path).silent unread.1 unread.2
      findings whole
    rw [silent] at made
    cases made
  · cases alone : scannedAlone workspace settings path with
    | ok findings =>
        rw [alone] at failed
        cases failed
    | error fault =>
        rw [findingsAlone, alone] at member
        cases member

end Alone

/-! ## Files one after the other -/

/-- The report after one more file, from what the file comes to alone. -/
def Report.take (workspace : Workspace) (settings : Settings) (report : Report)
    (path : String) : Report :=
  if isSkipped workspace settings path then report.skip path
  else report.inspect (findingsAlone workspace settings path)

section Run

variable (textual : settings.IsTextual) {index : SpecIndex}
variable (current : index.IsCurrent workspace settings.specStructure)

include textual current

/-- From an index that is up to date, a file comes to what it comes to alone. -/
theorem scanNext_of_isCurrent (path : String) (report : Report) :
    ∃ later : SpecIndex,
      scanNext workspace settings path report index =
          .ok (report.take workspace settings path, later) ∧
        later.IsCurrent workspace settings.specStructure := by
  unfold scanNext Report.take isSkipped
  split
  · rename_i unread
    exact ⟨index, by rw [unread, Bool.true_or, if_pos rfl], current⟩
  · rename_i unread
    rcases gives_scanFile textual path index current with ⟨gives, kept⟩
    refine ⟨(outcome (scanFile workspace settings path) index).2, ?_, kept⟩
    have run : (scanFile workspace settings path).run index =
        (scannedAlone workspace settings path,
          (outcome (scanFile workspace settings path) index).2) :=
      Prod.ext gives rfl
    rw [run, Bool.eq_false_iff.mpr unread, Bool.false_or, findingsAlone]
    cases alone : scannedAlone workspace settings path with
    | ok findings => rfl
    | error fault =>
        have skips := skipsFile_of_scannedAlone textual path alone
        cases fault with
        | settings fault => cases skips
        | _ => rfl

/-- A scan adds to its report what its files come to alone, one by one. -/
theorem scanAll_of_isCurrent (files : List String) (report : Report) :
    scanAll workspace settings report index files =
      .ok (files.foldl (Report.take workspace settings) report) := by
  induction files generalizing report index with
  | nil => rfl
  | cons first rest induction =>
      rcases scanNext_of_isCurrent textual current first report with
        ⟨later, next, kept⟩
      rw [scanAll, next, List.foldl_cons]
      exact induction kept _

omit current

theorem foldl_take (files : List String) (report : Report) :
    files.foldl (Report.take workspace settings) report =
      { findings := report.findings ++
          files.flatMap (findingsAlone workspace settings)
        filesInspected := report.filesInspected +
          files.countP (!isSkipped workspace settings ·)
        filesSkipped := report.filesSkipped ++
          files.filter (isSkipped workspace settings) } := by
  induction files generalizing report with
  | nil => simp
  | cons first rest induction =>
      rw [List.foldl_cons, induction, List.flatMap_cons]
      unfold Report.take
      cases skipped : isSkipped workspace settings first with
      | true =>
          rw [findingsAlone_of_isSkipped textual first skipped]
          simp [Report.skip, skipped]
      | false =>
          simp [Report.inspect, skipped, Nat.add_assoc, Nat.add_comm 1]

end Run

/-! ## Reports -/

/-- The report that is put together from what files come to alone. -/
def reportAlone (workspace : Workspace) (settings : Settings)
    (files : List String) : Report where
  findings := (files.flatMap (findingsAlone workspace settings)).mergeSort
    Finding.precedes
  filesInspected := files.countP (!isSkipped workspace settings ·)
  filesSkipped := files.filter (isSkipped workspace settings)

/-- A scan reports what the files that it finds come to alone. -/
theorem exists_scan (textual : settings.IsTextual) {path : String}
    {isFile : Bool} (asked : workspace.project.hasFile path = .ok isFile)
    (patterns : List String) :
    ∃ files places,
      findFiles workspace.project path sourceEndings (patterns.map .str) =
          .ok files ∧
        workspace.project.Shows places files ∧
        scan workspace settings path (patterns.map .str) =
          .ok (reportAlone workspace settings files) := by
  rcases Project.exists_findFiles asked sourceEndings patterns with
    ⟨files, places, found, shows⟩
  refine ⟨files, places, found, shows, ?_⟩
  have scanned : scanAll workspace settings .empty
      (.empty settings.specStructure.name) files = _ :=
    scanAll_of_isCurrent textual SpecIndex.isCurrent_empty files .empty
  have reported :
      (files.foldl (Report.take workspace settings) .empty).sorted =
        reportAlone workspace settings files := by
    rw [foldl_take textual]
    simp [Report.sorted, Report.empty, reportAlone]
  unfold scan
  rw [found]
  simp only [bind, Except.bind, Except.mapError, scanned]
  exact congrArg Except.ok reported

/-- Nothing is scanned where the path cannot be looked up. -/
theorem scan_of_error (settings : Settings) {path : String}
    {fault : Project.DiskFault}
    (refused : workspace.project.hasFile path = .error fault)
    (exclusions : List Json) :
    scan workspace settings path exclusions =
      .error (.search (.path fault)) := by
  rw [scan, Project.findFiles_of_error refused]
  rfl

theorem filter_flatMap_of_mem {findings : String → List Finding}
    {files : List String} (distinct : files.Nodup)
    (own : ∀ file ∈ files, ∀ finding ∈ findings file, finding.file = file)
    {file : String} (member : file ∈ files) :
    (files.flatMap findings).filter (·.file == file) = findings file := by
  induction files with
  | nil => cases member
  | cons first rest induction =>
      rw [List.nodup_cons] at distinct
      rcases List.forall_mem_cons.mp own with ⟨ownFirst, ownRest⟩
      rw [List.flatMap_cons, List.filter_append]
      by_cases same : file = first
      · subst same
        have others : (rest.flatMap findings).filter (·.file == file) = [] := by
          refine List.filter_eq_nil_iff.mpr fun finding made isHere => ?_
          rcases List.mem_flatMap.mp made with ⟨other, listed, made⟩
          rw [ownRest other listed finding made, beq_iff_eq] at isHere
          exact distinct.1 (isHere ▸ listed)
        have all : (findings file).filter (·.file == file) = findings file :=
          List.filter_eq_self.mpr fun finding made =>
            beq_iff_eq.mpr (ownFirst finding made)
        rw [others, all, List.append_nil]
      · have none : (findings first).filter (·.file == file) = [] := by
          refine List.filter_eq_nil_iff.mpr fun finding made isHere => ?_
          rw [ownFirst finding made, beq_iff_eq] at isHere
          exact same isHere.symm
        rw [none, List.nil_append]
        exact induction distinct.2 ownRest
          ((List.mem_cons.mp member).resolve_left same)

/-- What is found in a file that a search finds is shown under its path. -/
theorem file_of_mem_findingsAlone (textual : settings.IsTextual)
    (wellFormed : workspace.project.disk.WellFormed)
    {places : List Project.Place} {files : List String}
    (shows : workspace.project.Shows places files) {path : String}
    (listed : path ∈ files) {finding : Finding}
    (made : finding ∈ findingsAlone workspace settings path) :
    finding.file = path := by
  have shown := filePath_of_mem_findingsAlone textual path made
  rw [Finding.filePath, shows.isAbsolute wellFormed listed,
    shows.normalized wellFormed listed] at shown
  cases shown
  rfl

/-- What a report holds of a file is what is found in the file alone. -/
theorem filter_findings_of_mem (textual : settings.IsTextual)
    (wellFormed : workspace.project.disk.WellFormed)
    {places : List Project.Place} {files : List String}
    (shows : workspace.project.Shows places files) {file : String}
    (member : file ∈ files) :
    (reportAlone workspace settings files).findings.filter (·.file == file) =
      (findingsAlone workspace settings file).mergeSort Finding.precedes := by
  have own (path) (listed : path ∈ files) (finding)
      (made : finding ∈ findingsAlone workspace settings path) :
      finding.file = path :=
    file_of_mem_findingsAlone textual wellFormed shows listed made
  rw [reportAlone,
    filter_mergeSort Finding.precedes_trans Finding.precedes_total,
    filter_flatMap_of_mem (shows.nodup wellFormed) own member]

/--
A scan reports what its files come to alone, in order, and counts and skips
them file by file.  So two scans that visit a file report the same about it.
Nothing is scanned where the path cannot be looked up.
-/
theorem scan_eq_filewise (workspace : Workspace) (textual : settings.IsTextual)
    (wellFormed : workspace.project.disk.WellFormed) (path : String)
    (patterns : List String) :
    (∀ fault, workspace.project.hasFile path = .error fault →
      findFiles workspace.project path sourceEndings (patterns.map .str) =
          .error (.path fault) ∧
        scan workspace settings path (patterns.map .str) =
          .error (.search (.path fault))) ∧
    ∀ isFile, workspace.project.hasFile path = .ok isFile →
      ∃ files report,
        findFiles workspace.project path sourceEndings (patterns.map .str) =
            .ok files ∧
          scan workspace settings path (patterns.map .str) = .ok report ∧
          report.findings =
            (files.flatMap (findingsAlone workspace settings)).mergeSort
              Finding.precedes ∧
          report.filesInspected + report.filesSkipped.length = files.length ∧
          report.filesSkipped = files.filter (isSkipped workspace settings) ∧
          ∀ (otherPath : String) (otherPatterns otherFiles : List String)
            (otherReport : Report),
            findFiles workspace.project otherPath sourceEndings
                (otherPatterns.map .str) = .ok otherFiles →
            scan workspace settings otherPath (otherPatterns.map .str) =
                .ok otherReport →
            ∀ file ∈ files, file ∈ otherFiles →
              otherReport.findings.filter (·.file == file) =
                report.findings.filter (·.file == file) := by
  refine ⟨fun fault refused => ⟨Project.findFiles_of_error refused _ _,
    scan_of_error settings refused _⟩, fun isFile asked => ?_⟩
  rcases exists_scan textual asked patterns with
    ⟨files, places, found, shows, scanned⟩
  refine ⟨files, _, found, scanned, rfl, ?_, rfl, ?_⟩
  · rw [reportAlone, List.countP_eq_length_filter, Nat.add_comm]
    exact (List.length_eq_length_filter_add _).symm
  · intro otherPath otherPatterns otherFiles otherReport otherFound otherScanned
      file member otherMember
    cases otherAsked : workspace.project.hasFile otherPath with
    | error fault =>
        cases otherFound.symm.trans (Project.findFiles_of_error otherAsked _ _)
    | ok otherIsFile =>
        rcases exists_scan textual otherAsked otherPatterns with
          ⟨_, otherPlaces, found', otherShows, scanned'⟩
        cases otherFound.symm.trans found'
        cases otherScanned.symm.trans scanned'
        rw [filter_findings_of_mem textual wellFormed shows member,
          filter_findings_of_mem textual wellFormed otherShows otherMember]

/-- A project of a source and its spec, which sets something up eagerly. -/
def eagerProject : Project where
  disk := .directory [
    ("app", .directory [("models", .directory
      [("toggle.rb", .file .empty)])]),
    ("spec", .directory [("models", .directory
      [("toggle_spec.rb", .file "let! :toggle\n".toUTF8)])])]
  root := []

theorem findFiles_eagerProject :
    findFiles eagerProject "." sourceEndings [] =
      .ok ["app/models/toggle.rb", "spec/models/toggle_spec.rb"] :=
  Project.findFiles_top (by decide) (by decide)

/-- Without the grammar the source is skipped and the spec is reported. -/
theorem scan_eq_filewise_eager :
    let workspace : Workspace := ⟨eagerProject, .missing⟩
    Settings.standard.IsTextual ∧ eagerProject.disk.WellFormed ∧
      ∃ report,
        scan workspace .standard "." [] = .ok report ∧
          report.findings.length = 1 ∧
          report.filesInspected = 1 ∧
          report.filesSkipped = ["app/models/toggle.rb"] := by
  intro workspace
  have alone {name : String} {entry : Project.Entry}
      (isName : Project.IsName name) (wellFormed : entry.WellFormed) :
      (Project.Entry.directory [(name, entry)]).WellFormed :=
    .directory _ (by simpa using isName) (by simp) (by simpa using wellFormed)
  have wellFormed : eagerProject.disk.WellFormed := by
    refine .directory _ (by decide) (by decide) ?_
    rw [List.forall_mem_cons, List.forall_mem_singleton]
    exact ⟨alone (by decide) (alone (by decide) (.file _)),
      alone (by decide) (alone (by decide) (.file _))⟩
  have whole :
      (["app/models/toggle.rb", "spec/models/toggle_spec.rb"].flatMap
        (findingsAlone workspace .standard)).length = 1 ∧
      ["app/models/toggle.rb", "spec/models/toggle_spec.rb"].filter
          (isSkipped workspace .standard) = ["app/models/toggle.rb"] := by
    decide +kernel
  rcases (scan_eq_filewise workspace .standard wellFormed "." []).2 false rfl
    with ⟨files, report, found, scanned, findings, counted, skipped, -⟩
  cases findFiles_eagerProject.symm.trans found
  rw [whole.2] at skipped
  refine ⟨.standard, wellFormed, report, scanned, ?_, ?_, skipped⟩
  · rw [findings, List.length_mergeSort, whole.1]
  · rw [skipped] at counted
    exact Nat.succ_inj.mp counted

end SpecAudit.Audit

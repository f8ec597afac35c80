import SpecAudit.Proofs.Audit.Scan
import SpecAudit.Proofs.Audit.Topic
import SpecAudit.Proofs.Project.Ending
import SpecAudit.Syntax.Table

/-!
# What identifiers of findings identify

Identifiers leave out the column.  So two findings of a scan have the same
identifier exactly if one check made both in one file, about one name on one
line.  As a check makes at most one finding of a method or a call, identifiers
are told apart where names and lines are: in a spec, if no two eager calls
start on one line, and in a source, if no two methods of one name do.
-/

namespace SpecAudit.Audit

open SpecAudit.Config (Settings)
open SpecAudit.Finding (EndsAsSource IsPlain)
open SpecAudit.Project (findFiles sourceEndings)

variable {workspace : Workspace} {settings : Settings}
variable {path : String} {finding left right : Finding}

/-! ## Two findings -/

/-- What can be found in a file. -/
def topicsIn (workspace : Workspace) (path : String) :
    List (String × String × Int) :=
  ((checksOf path).product (namedLinesIn workspace path)).map topicOf

/-- What is found in a file is about some of what can be found there. -/
theorem areAbout_findingsAlone (workspace : Workspace) (settings : Settings)
    (path : String) :
    AreAbout (topicsIn workspace path)
      (findingsAlone workspace settings path) := by
  unfold findingsAlone
  split
  · exact ensures_scanFile _ _ ‹_›
  · exact .nil

/-- Whether a finding is one that a check makes of a line. -/
structure IsMade (finding : Finding) : Prop where
  identified : finding.IsIdentified
  checked : ∃ cop : Cop, finding.detector = cop.name
  placed : ∃ line : Nat, finding.line = line

theorem isMade_of_mem_findingsAlone
    (member : finding ∈ findingsAlone workspace settings path) :
    IsMade finding := by
  have about := areAbout_findingsAlone workspace settings path
  have topic := about.topics.subset (List.mem_map_of_mem member)
  rcases List.mem_map.mp topic with ⟨⟨cop, name, line⟩, -, same⟩
  have detector := congrArg Prod.fst same
  have line' := congrArg (·.2.2) same
  exact ⟨about.identified finding member, ⟨cop, detector.symm⟩,
    ⟨line, line'.symm⟩⟩

/-- Two findings of checks have the same identifier exactly if they are about
the same in one file. -/
theorem id_eq_iff (made : IsMade left) (made' : IsMade right)
    (readable : left.file = right.file ∨
      (EndsAsSource left.file ∧ EndsAsSource right.file) ∧
        IsPlain left.name ∧ IsPlain right.name) :
    left.id = right.id ↔ left.topic = right.topic ∧ left.file = right.file := by
  rcases made with ⟨identified, ⟨cop, detector⟩, ⟨line, placed⟩⟩
  rcases made' with ⟨identified', ⟨cop', detector'⟩, ⟨line', placed'⟩⟩
  unfold Finding.IsIdentified at identified identified'
  rw [identified, identified']
  constructor
  · intro same
    rw [detector, placed, detector', placed'] at same
    have parts : cop = cop' ∧ left.file = right.file ∧
        left.name = right.name ∧ line = line' := by
      rcases readable with files | ⟨⟨ends, ends'⟩, plain, plain'⟩
      · rw [files] at same
        rcases Finding.identifier_injective_of_file same with
          ⟨cops, names, lines⟩
        exact ⟨cops, files, names, lines⟩
      · exact Finding.identifier_injective ends ends' plain plain' same
    rcases parts with ⟨cops, files, names, lines⟩
    refine ⟨?_, files⟩
    unfold Finding.topic
    rw [detector, placed, detector', placed', cops, names, lines]
  · rintro ⟨topics, files⟩
    injection topics with detectors rest
    injection rest with names lines
    rw [detectors, files, names, lines]

/-! ## Files -/

theorem topicOf_injective : Function.Injective topicOf := by
  rintro ⟨cop, name, line⟩ ⟨cop', name', line'⟩ same
  injection same with cops rest
  injection rest with names lines
  exact Prod.ext (Finding.name_injective cops)
    (Prod.ext names (Int.ofNat_inj.mp lines))

theorem nodup_topicsIn (apart : (namedLinesIn workspace path).Nodup) :
    (topicsIn workspace path).Nodup := by
  have checks : (checksOf path).Nodup := by
    unfold checksOf
    split <;> decide
  exact (checks.product apart).map topicOf_injective

/-- In a file where names and lines are told apart, so are the identifiers. -/
theorem nodup_ids_findingsAlone (textual : settings.IsTextual)
    (apart : (namedLinesIn workspace path).Nodup) :
    ((findingsAlone workspace settings path).map Finding.id).Nodup := by
  have about := areAbout_findingsAlone workspace settings path
  have topics := (nodup_topicsIn apart).sublist about.topics
  refine List.pairwise_map.mpr ?_
  refine (List.pairwise_map.mp topics).imp_of_mem ?_
  intro left right member member' different same
  have files : left.file = right.file := by
    have shown := filePath_of_mem_findingsAlone textual path member
    rw [filePath_of_mem_findingsAlone textual path member'] at shown
    exact (Except.ok.inj shown).symm
  have alike := (id_eq_iff (isMade_of_mem_findingsAlone member)
    (isMade_of_mem_findingsAlone member') (.inl files)).mp same
  exact different alike.1

/-! ## Specs without the grammar -/

theorem nodup_letBangLines (text : String) :
    ((letBangLines text).map Prod.fst).Nodup := by
  have numbers : ((Text.numberedLines text.toList).map Prod.fst).Nodup := by
    refine List.pairwise_iff_getElem.mpr fun first second _ _ earlier => ?_
    simp only [Text.numberedLines, List.getElem_map, List.getElem_mapIdx]
    omega
  refine numbers.sublist ?_
  unfold letBangLines
  induction Text.numberedLines text.toList with
  | nil => exact .slnil
  | cons first rest induction =>
      rcases first with ⟨number, line⟩
      rw [List.filterMap_cons]
      dsimp only
      by_cases starts : startsLetBang line = true
      · rw [if_pos starts]
        exact induction.cons_cons _
      · rw [if_neg starts]
        exact induction.cons _

/-- Where the grammar is not loaded, calls are looked for line by line, so no
two of them stand on one line. -/
theorem nodup_namedLinesIn_of_not_isAvailable
    (unavailable : workspace.grammar.isAvailable = false) (path : String) :
    (namedLinesIn workspace path).Nodup := by
  have parse (text : String) :
      ∃ fault, workspace.grammar.parse text = .error fault := by
    cases grammar : workspace.grammar with
    | loaded parse =>
        rw [grammar] at unavailable
        cases unavailable
    | missing => exact ⟨_, rfl⟩
    | broken reason => exact ⟨_, rfl⟩
  unfold namedLinesIn
  split
  · exact List.nodup_nil
  · split
    · exact List.nodup_nil
    · rename_i text _
      rcases parse text with ⟨fault, failed⟩
      unfold namedLines
      split
      · have lines := (nodup_letBangLines text).map
          fun _ _ same => (Prod.mk.inj same : letBang = letBang ∧ _).2
        rw [List.map_map] at lines
        rw [letBangCalls, failed]
        exact lines
      · rw [methodsOf, failed]
        exact List.nodup_nil

theorem name_of_not_isAvailable (textual : settings.IsTextual)
    (unavailable : workspace.grammar.isAvailable = false)
    (member : finding ∈ findingsAlone workspace settings path) :
    finding.name = letBang := by
  have isSpec : Path.isSpecFile path = true := by
    by_contra isSource
    rw [Bool.not_eq_true] at isSource
    have skipped : isSkipped workspace settings path = true := by
      simp [isSkipped, unavailable, isSource]
    rw [findingsAlone_of_isSkipped textual path skipped] at member
    cases member
  have about := areAbout_findingsAlone workspace settings path
  have topic := about.topics.subset (List.mem_map_of_mem member)
  rcases List.mem_map.mp topic with ⟨⟨cop, name, line⟩, among, same⟩
  have name' : name = finding.name := congrArg (·.2.1) same
  have listed := (List.mem_product.mp among).2
  unfold namedLinesIn namedLines at listed
  rw [isSpec] at listed
  split at listed
  · cases listed
  · split at listed
    · cases listed
    · rcases List.mem_map.mp listed with ⟨call, -, same⟩
      rw [← name']
      exact (congrArg Prod.fst same).symm

/-! ## Scans -/

section Scans

variable {files : List String} {exclusions : List Json}

theorem mem_reportAlone :
    finding ∈ (reportAlone workspace settings files).findings ↔
      ∃ file ∈ files, finding ∈ findingsAlone workspace settings file := by
  rw [reportAlone, (List.mergeSort_perm _ _).mem_iff, List.mem_flatMap]

/-- Of several files that are found each holds the ending of a source or no
colon, so that it can be told from names that hold no such ending. -/
theorem id_eq_iff_of_findFiles
    (found : findFiles workspace.project path sourceEndings exclusions =
      .ok files)
    (made : IsMade left) (made' : IsMade right)
    (listed : left.file ∈ files) (listed' : right.file ∈ files)
    (plain : left.file = right.file ∨ IsPlain left.name ∧ IsPlain right.name) :
    left.id = right.id ↔
      left.topic = right.topic ∧ left.file = right.file := by
  apply id_eq_iff made made'
  rcases Project.endsAsSource_of_findFiles found with ⟨file, rfl⟩ | ends
  · left
    rw [List.mem_singleton.mp listed, List.mem_singleton.mp listed']
  · exact plain.imp_right fun plain =>
      ⟨⟨ends _ listed, ends _ listed'⟩, plain⟩

theorem nodup_ids_reportAlone (textual : settings.IsTextual)
    (distinct : files.Nodup)
    (apart : ∀ file ∈ files, (namedLinesIn workspace file).Nodup)
    (told : ∀ file ∈ files, ∀ file' ∈ files, file ≠ file' →
      ∀ left ∈ findingsAlone workspace settings file,
      ∀ right ∈ findingsAlone workspace settings file', left.id ≠ right.id) :
    ((reportAlone workspace settings files).findings.map Finding.id).Nodup := by
  rw [reportAlone, ((List.mergeSort_perm _ _).map _).nodup_iff,
    List.map_flatMap, List.nodup_flatMap]
  refine ⟨fun file listed => nodup_ids_findingsAlone textual (apart file listed),
    distinct.pairwise_of_forall_ne ?_⟩
  intro file listed file' listed' different id member member'
  rcases List.mem_map.mp member with ⟨left, made, rfl⟩
  rcases List.mem_map.mp member' with ⟨right, made', same⟩
  exact told file listed file' listed' different left made right made' same.symm

end Scans

/--
Two findings of a scan have the same identifier exactly if one check made both
in one file, about one name on one line; findings in different files are told
apart only if their names do not hold the ending of a source, as no name of a
method does.  So identifiers are pairwise distinct if in no file that is scanned
a name stands on a line twice, and in any case where the grammar is not loaded.
A path that cannot be looked up has no findings.
-/
theorem id_eq_iff_of_scan (workspace : Workspace) (textual : settings.IsTextual)
    (wellFormed : workspace.project.disk.WellFormed) (path : String)
    (patterns : List String) :
    (∀ fault, workspace.project.hasFile path = .error fault →
      scan workspace settings path (patterns.map .str) =
        .error (.search (.path fault))) ∧
    ∀ isFile, workspace.project.hasFile path = .ok isFile →
      ∃ files report,
        findFiles workspace.project path sourceEndings (patterns.map .str) =
            .ok files ∧
          scan workspace settings path (patterns.map .str) = .ok report ∧
          (∀ left ∈ report.findings, ∀ right ∈ report.findings,
            left.file = right.file ∨ IsPlain left.name ∧ IsPlain right.name →
            (left.id = right.id ↔
              left.topic = right.topic ∧ left.file = right.file)) ∧
          ((∀ finding ∈ report.findings, IsPlain finding.name) →
            (∀ file ∈ files, (namedLinesIn workspace file).Nodup) →
            (report.findings.map Finding.id).Nodup) ∧
          (workspace.grammar.isAvailable = false →
            (report.findings.map Finding.id).Nodup) := by
  refine ⟨fun fault refused => scan_of_error settings refused _,
    fun isFile asked => ?_⟩
  rcases exists_scan textual asked patterns with
    ⟨files, places, found, shows, scanned⟩
  have own {finding : Finding} {file : String} (listed : file ∈ files)
      (member : finding ∈ findingsAlone workspace settings file) :
      finding.file = file :=
    file_of_mem_findingsAlone textual wellFormed shows listed member
  have told (plain : ∀ finding ∈ (reportAlone workspace settings files).findings,
        IsPlain finding.name)
      (apart : ∀ file ∈ files, (namedLinesIn workspace file).Nodup) :
      ((reportAlone workspace settings files).findings.map
        Finding.id).Nodup := by
    refine nodup_ids_reportAlone textual (shows.nodup wellFormed) apart ?_
    intro file listed file' listed' different left member right member' same
    have plain' := plain left (mem_reportAlone.mpr ⟨file, listed, member⟩)
    have plain'' := plain right (mem_reportAlone.mpr ⟨file', listed', member'⟩)
    have alike := (id_eq_iff_of_findFiles found
      (isMade_of_mem_findingsAlone member) (isMade_of_mem_findingsAlone member')
      (own listed member ▸ listed) (own listed' member' ▸ listed')
      (.inr ⟨plain', plain''⟩)).mp same
    rw [own listed member, own listed' member'] at alike
    exact different alike.2
  refine ⟨files, _, found, scanned, ?_, told, fun unavailable => ?_⟩
  · intro left member right member' plain
    rcases mem_reportAlone.mp member with ⟨file, listed, member⟩
    rcases mem_reportAlone.mp member' with ⟨file', listed', member'⟩
    exact id_eq_iff_of_findFiles found (isMade_of_mem_findingsAlone member)
      (isMade_of_mem_findingsAlone member') (own listed member ▸ listed)
      (own listed' member' ▸ listed') plain
  · refine told (fun finding member => ?_) fun file _ =>
      nodup_namedLinesIn_of_not_isAvailable unavailable file
    rcases mem_reportAlone.mp member with ⟨file, -, member⟩
    rw [name_of_not_isAvailable textual unavailable member]
    decide

/-- A document of two eager calls, on two lines or on one. -/
def setupText (apart : Bool) : String :=
  let between := if apart then "\n\n" else "; "
  "let!(:a) \x7b 1 \x7d" ++ between ++ "let!(:b) \x7b 2 \x7d\n"

/-- A project with this document as its one spec. -/
def setupProject (apart : Bool) : Project where
  disk := .directory [("spec", .directory [("models", .directory
    [("order_spec.rb", .file (setupText apart).toUTF8)])])]
  root := []

/-- The rows of an eager call from a byte on, the first of which has a number. -/
def setupRows (row start : Nat) : List Syntax.Row :=
  [ ⟨some 0, "call", none, true, start, start + 14⟩,
    ⟨some row, "identifier", some "method", true, start, start + 4⟩,
    ⟨some row, "argument_list", some "arguments", true, start + 4, start + 8⟩,
    ⟨some (row + 2), "simple_symbol", none, true, start + 5, start + 7⟩,
    ⟨some row, "block", some "block", true, start + 9, start + 14⟩,
    ⟨some (row + 4), "block_body", some "body", true, start + 11, start + 12⟩,
    ⟨some (row + 5), "integer", none, true, start + 11, start + 12⟩ ]

/-- The project with a grammar that reads its document, either way. -/
def setupWorkspace (apart : Bool) : Workspace where
  project := setupProject apart
  grammar := .loaded fun text => .ofRows text false
    (⟨none, "program", none, true, 0, 31⟩ :: setupRows 1 0 ++ setupRows 8 16)

theorem wellFormed_setup (apart : Bool) :
    (setupProject apart).disk.WellFormed :=
  .alone (by decide) (.alone (by decide) (.alone (by decide) (.file _)))

theorem findFiles_setup (apart : Bool) :
    findFiles (setupProject apart) "." sourceEndings [] =
      .ok ["spec/models/order_spec.rb"] :=
  Project.findFiles_top (by cases apart <;> decide)
    (List.pairwise_singleton _ _)

theorem hasFile_setup (apart : Bool) :
    (setupWorkspace apart).project.hasFile "." = .ok false := by
  cases apart <;> rfl

/-- Two calls on one line are two findings in different columns, with the same
identifier. -/
theorem not_nodup_ids_one_line :
    Settings.standard.IsTextual ∧ (setupProject false).disk.WellFormed ∧
      ∃ report, scan (setupWorkspace false) .standard "." [] = .ok report ∧
        report.findings.map (·.column) = [0, 16] ∧
        ¬ (report.findings.map Finding.id).Nodup := by
  have inOrder : (["spec/models/order_spec.rb"].flatMap
      (findingsAlone (setupWorkspace false) .standard)).Pairwise
        fun left right => Finding.precedes left right = true := by
    decide +kernel
  have columns : (["spec/models/order_spec.rb"].flatMap
      (findingsAlone (setupWorkspace false) .standard)).map (·.column) =
        [0, 16] := by
    decide +kernel
  have repeated : ¬ ((["spec/models/order_spec.rb"].flatMap
      (findingsAlone (setupWorkspace false) .standard)).map
        Finding.id).Nodup := by
    decide +kernel
  rcases exists_scan .standard (hasFile_setup false) [] with
    ⟨files, places, found, -, scanned⟩
  cases (findFiles_setup false).symm.trans found
  have findings : (reportAlone (setupWorkspace false) .standard
      ["spec/models/order_spec.rb"]).findings = _ :=
    List.mergeSort_of_pairwise inOrder
  refine ⟨.standard, wellFormed_setup false, _, scanned, ?_, ?_⟩
  · rw [findings, columns]
  · rw [findings]
    exact repeated

/-- The same two calls on different lines are told apart. -/
theorem id_eq_iff_of_scan_two_lines :
    Settings.standard.IsTextual ∧ (setupProject true).disk.WellFormed ∧
      ∃ report, scan (setupWorkspace true) .standard "." [] = .ok report ∧
        report.findings.length = 2 ∧
        (report.findings.map Finding.id).Nodup := by
  have two : (["spec/models/order_spec.rb"].flatMap
      (findingsAlone (setupWorkspace true) .standard)).length = 2 := by
    decide +kernel
  have plain : ∀ finding ∈ ["spec/models/order_spec.rb"].flatMap
      (findingsAlone (setupWorkspace true) .standard),
        IsPlain finding.name := by
    decide +kernel
  have apart : ∀ file ∈ ["spec/models/order_spec.rb"],
      (namedLinesIn (setupWorkspace true) file).Nodup := by
    decide +kernel
  rcases (id_eq_iff_of_scan (setupWorkspace true) .standard
    (wellFormed_setup true) "." []).2 false (hasFile_setup true) with
    ⟨files, report, found, scanned, -, distinct, -⟩
  rcases exists_scan .standard (hasFile_setup true) [] with
    ⟨_, _, found', -, scanned'⟩
  cases (findFiles_setup true).symm.trans found
  cases (findFiles_setup true).symm.trans found'
  cases scanned'.symm.trans scanned
  refine ⟨.standard, wellFormed_setup true, _, scanned, ?_,
    distinct (fun finding member => ?_) apart⟩
  · rw [reportAlone, List.length_mergeSort, two]
  · exact plain finding ((List.mergeSort_perm _ _).subset member)

end SpecAudit.Audit

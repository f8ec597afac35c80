import SpecAudit.Proofs.Audit.FileScan

/-!
# Scans that an entry of the settings stops

Entries of the settings are used where they are needed: directories for every
source that can be read, the starts of names for the methods of those that are
covered, if a check asks for them.  A scan is stopped exactly by a file for
which an entry is needed that is no text; whatever else is wrong with a file
makes the scan skip it.  If it is the spec of the file that cannot be looked up,
the check of contexts still asks for the starts of names, up to the first method
that is not left out.
-/

namespace SpecAudit.Config.Settings

/-- Whether a method is kept by the settings, which is not left out by them. -/
def keepsMethod (settings : Settings) (name : String) :
    Except SettingsFault Bool :=
  (settings.excludesMethod name).map (!·)

theorem fails_keepsMethod_iff {settings : Settings} {name : String} :
    Fails (settings.keepsMethod name) ↔ Fails (settings.excludesMethod name) := by
  unfold keepsMethod
  cases settings.excludesMethod name <;> simp [Except.map]

end SpecAudit.Config.Settings

namespace SpecAudit.Audit

open SpecAudit.Config (MeetsNonText Settings)
open SpecAudit.Method (Site)
open SpecAudit.Spec (Forest Structure)

variable {α : Type} {workspace : Workspace} {way : Structure}

/-! ## Checks -/

section Checks

variable {settings : Settings} {path specPath file text : String}
variable {site : Site} {sites : List Site}

theorem stopsIff_findInsufficientContexts
    (free : ∀ fault, ¬ IsBarred workspace path fault)
    (shown : Finding.filePath workspace.project path = .ok file)
    (covered : settings.covers path = .ok true) :
    StopsIff workspace way
      (findInsufficientContexts workspace settings path sites)
      (∃ site ∈ sites, Fails (settings.excludesMethod site.name)) := by
  have audited : StopsIff workspace way
      (auditFile workspace settings path sites)
      (∃ site ∈ sites, Fails (settings.excludesMethod site.name)) :=
    .mapM fun site _ =>
      ((stopsIff_auditMethod free site).before fun _ => ⟨_, .pure _⟩).congr
        (by simp [covered])
  exact audited.before fun values =>
    (yields_mapM_finding shown values).imp fun _ both => both.1

theorem stopsIff_missingSpec
    (shown : Finding.filePath workspace.project path = .ok file)
    (forest : Forest) (site : Site) :
    StopsIff workspace way
      (missingSpec? workspace settings path specPath forest site)
      (site.isPublic = true ∧ Fails (settings.excludesMethod site.name)) := by
  unfold missingSpec?
  cases isPublic : site.isPublic with
  | false => exact (StopsIff.pure none).congr (by simp)
  | true =>
      simp only [Bool.not_true, Bool.false_eq_true, if_false, true_and]
      refine (StopsIff.ofSettings _).before fun excluded => ?_
      split
      · exact ⟨_, .pure _⟩
      · split
        · exact ⟨_, .pure _⟩
        · unfold missingSpecFinding
          rcases exists_make shown site.name site.line site.column
            (Finding.missingSpecMessage site.name
              (Path.relativeSpecPath specPath path)) .convention
            [("kind", .str site.kind.name), ("spec_path", .str specPath)]
            with ⟨finding, found, -⟩
          exact ⟨_, (Gives.ofDisk found).bind (.pure _)⟩

/-- Whether a file has a spec that is there and can be read. -/
def HasSpec (workspace : Workspace) (path : String) : Prop :=
  ∃ specPath, Path.specPath? path = some specPath ∧
    workspace.project.hasFile specPath = .ok true ∧
    (workspace.project.text? specPath).isSome = true

theorem stopsIff_findMissingSpecs
    (free : ∀ fault, ¬ IsBarred workspace path fault)
    (shown : Finding.filePath workspace.project path = .ok file)
    (notSpec : Path.isSpecFile path = false)
    (covered : settings.covers path = .ok true) :
    StopsIff workspace way (findMissingSpecs workspace settings path sites)
      (HasSpec workspace path ∧ ∃ site ∈ sites, site.isPublic = true ∧
        Fails (settings.excludesMethod site.name)) := by
  have checked : Gives workspace way (isToBeChecked settings path)
      (.ok true) := by
    rw [isToBeChecked, notSpec]
    exact .ofSettings covered
  unfold findMissingSpecs
  refine .after checked ?_
  simp only [Bool.not_true, Bool.false_eq_true, if_false]
  unfold HasSpec
  cases conventional : Path.specPath? path with
  | none => exact (StopsIff.pure []).congr (by simp)
  | some specPath =>
      dsimp only
      rcases exists_hasFile_of_not_isBarred free conventional with
        ⟨present, looked⟩
      refine .after (.ofDisk looked) ?_
      cases present with
      | false => exact (StopsIff.pure []).congr (by simp [looked])
      | true =>
          simp only [Bool.not_true, Bool.false_eq_true, if_false]
          refine .after (.forest specPath) ?_
          unfold forestNow
          cases text : workspace.project.text? specPath with
          | none => exact (StopsIff.pure []).congr (by simp [text])
          | some text =>
              refine ((StopsIff.mapM fun site _ =>
                stopsIff_missingSpec shown _ site).before fun findings =>
                  ⟨_, .pure _⟩).congr ?_
              simp [looked, text]

section Barred

variable {fault : Project.DiskFault}
variable (covered : settings.covers path = .ok true)
variable (barred : IsBarred workspace path fault)

include covered barred

/-- Where the spec cannot be looked up, the methods are judged up to the first
that is kept, or of which that cannot be told. -/
theorem exists_auditFile_of_isBarred (sites : List Site) :
    ∃ result,
      Gives workspace way (auditFile workspace settings path sites) result ∧
        ((∃ fault, result = .error (.settings fault)) ↔
          FailsFirst (fun site => settings.keepsMethod site.name) sites) ∧
        ∀ audited, result = .ok audited → diagnostics path audited = [] := by
  induction sites with
  | nil => exact ⟨.ok [], .pure [], by simp [FailsFirst], by simp [diagnostics]⟩
  | cons first rest induction =>
      have judged {excluded : Bool}
          (excludes : settings.excludesMethod first.name = .ok excluded) :
          Gives workspace way (auditMethod workspace settings path first) _ :=
        .of_outcome fun index =>
          outcome_auditMethod_of_isBarred covered barred index excludes
      rw [failsFirst_cons_iff, auditFile, List.mapM_cons, Settings.keepsMethod]
      cases excludes : settings.excludesMethod first.name with
      | error fault =>
          have stopped : Gives workspace way
              (auditMethod workspace settings path first)
              (.error (.settings fault)) := by
            unfold auditMethod
            rw [covered, excludes]
            exact (Gives.lift _).bind (Gives.lift _).bind_error
          refine ⟨_, stopped.bind_error.bind_error, ?_, by simp⟩
          simp [Except.map]
      | ok excluded =>
          cases excluded with
          | false =>
              refine ⟨_, (judged excludes).bind_error.bind_error, ?_, by simp⟩
              simp [Except.map]
          | true =>
              rcases induction with ⟨result, gives, stops, silent⟩
              have own : Gives workspace way (do
                  let verdict ← auditMethod workspace settings path first
                  return (first, verdict)) (.ok (first, .excluded)) :=
                (judged excludes).bind (.pure _)
              rw [auditFile] at gives
              cases result with
              | error fault =>
                  refine ⟨_, own.bind gives.bind_error, ?_, by simp⟩
                  simpa [Except.map] using stops
              | ok audited =>
                  refine ⟨_, own.bind (gives.bind (.pure _)), ?_, ?_⟩
                  · simpa [Except.map] using stops
                  · rintro _ ⟨⟩
                    exact silent audited rfl

/-- Where the spec cannot be looked up, the check of contexts is stopped by the
settings exactly if it cannot be told of a method whether it is kept, and no
method before it is. -/
theorem exists_findInsufficientContexts_of_isBarred (sites : List Site) :
    ∃ result,
      Gives workspace way
          (findInsufficientContexts workspace settings path sites) result ∧
        ((∃ fault, result = .error (.settings fault)) ↔
          FailsFirst (fun site => settings.keepsMethod site.name) sites) := by
  rcases exists_auditFile_of_isBarred covered barred sites with
    ⟨result, gives, stops, silent⟩
  cases result with
  | error fault => exact ⟨_, gives.bind_error, by simpa using stops⟩
  | ok audited =>
      refine ⟨.ok [], gives.bind ?_, by simpa using stops⟩
      rw [silent audited rfl]
      exact .pure []

end Barred

end Checks

/-! ## Files -/

section Files

variable {settings : Settings} {path file text : String}

/-- Whether the scan of a source is stopped by an entry that is no text: a
directory that is tried for the source, or the start of a name that is tried for
one of its methods by a check that is run.  If the spec of the source cannot be
looked up, names are tried only up to the first that is not left out. -/
inductive IsStopped (workspace : Workspace) (settings : Settings)
    (path text : String) : Prop
  | directory (nonText : MeetsNonText (Path.isUnder · path)
        settings.coveredDirectories) :
      IsStopped workspace settings path text
  | start {sites : List Site} {site : Site}
      (covered : settings.covers path = .ok true)
      (parsed : methodsOf workspace.grammar text = .ok sites)
      (member : site ∈ sites)
      (unlisted : .str site.name ∉ settings.excludedMethods)
      (nonText : MeetsNonText (fun start =>
        start.toList.isPrefixOf site.name.toList) settings.excludedStarts)
      (asked : settings.enables Cop.sufficientContexts.name = true ∧
          (∀ fault, ¬ IsBarred workspace path fault) ∨
        settings.enables Cop.publicMethodHasSpec.name = true ∧
          site.isPublic = true ∧ HasSpec workspace path) :
      IsStopped workspace settings path text
  | beforeFault {sites : List Site} {fault : Project.DiskFault}
      (covered : settings.covers path = .ok true)
      (parsed : methodsOf workspace.grammar text = .ok sites)
      (barred : IsBarred workspace path fault)
      (enabled : settings.enables Cop.sufficientContexts.name = true)
      (fails : FailsFirst (fun site => settings.keepsMethod site.name) sites) :
      IsStopped workspace settings path text

/-- Whether the scan of the file that a path leads to is stopped. -/
def IsStoppedAt (workspace : Workspace) (settings : Settings) (path : String) :
    Prop :=
  Path.isSpecFile path = false ∧
    ∃ place text, workspace.project.resolvePath path = .ok place ∧
      workspace.project.text? (Project.pathOf place) = some text ∧
      IsStopped workspace settings path text

/-- Whether a step comes to a result, and is stopped by the settings exactly on
a condition.  It may fail otherwise. -/
def Ends (workspace : Workspace) (way : Structure) (step : Step α)
    (stops : Prop) : Prop :=
  ∃ result, Gives workspace way step result ∧
    ((∃ fault, result = .error (.settings fault)) ↔ stops)

theorem StopsIff.ends {step : Step α} {stops : Prop}
    (given : StopsIff workspace way step stops) :
    Ends workspace way step stops := by
  rcases given with ⟨goesOn, value, gives⟩ | ⟨stopped, fault, gives⟩
  · exact ⟨_, gives, by simp [goesOn]⟩
  · exact ⟨_, gives, by simp [stopped]⟩

section Covered

variable {sites : List Site}
variable (covered : settings.covers path = .ok true)
variable (parsed : methodsOf workspace.grammar text = .ok sites)

include covered parsed

theorem isStopped_iff_of_not_isBarred
    (free : ∀ fault, ¬ IsBarred workspace path fault) :
    IsStopped workspace settings path text ↔
      settings.enables Cop.sufficientContexts.name = true ∧
          (∃ site ∈ sites, Fails (settings.excludesMethod site.name)) ∨
        settings.enables Cop.publicMethodHasSpec.name = true ∧
          HasSpec workspace path ∧ ∃ site ∈ sites, site.isPublic = true ∧
            Fails (settings.excludesMethod site.name) := by
  simp only [Settings.fails_excludesMethod_iff]
  constructor
  · intro stopped
    cases stopped with
    | directory nonText =>
        have fails := Settings.fails_covers_iff.mpr nonText
        rw [covered] at fails
        exact absurd fails (not_fails_ok true)
    | start covered' parsed' member unlisted nonText asked =>
        cases parsed.symm.trans parsed'
        rcases asked with ⟨enabled, -⟩ | ⟨enabled, isPublic, hasSpec⟩
        · exact .inl ⟨enabled, _, member, unlisted, nonText⟩
        · exact .inr
            ⟨enabled, hasSpec, _, member, isPublic, unlisted, nonText⟩
    | beforeFault covered' parsed' barred => exact absurd barred (free _)
  · rintro (⟨enabled, site, member, unlisted, nonText⟩ |
      ⟨enabled, hasSpec, site, member, isPublic, unlisted, nonText⟩)
    · exact .start covered parsed member unlisted nonText
        (.inl ⟨enabled, free⟩)
    · exact .start covered parsed member unlisted nonText
        (.inr ⟨enabled, isPublic, hasSpec⟩)

theorem isStopped_iff_of_isBarred {fault : Project.DiskFault}
    (barred : IsBarred workspace path fault) :
    IsStopped workspace settings path text ↔
      settings.enables Cop.sufficientContexts.name = true ∧
        FailsFirst (fun site => settings.keepsMethod site.name) sites := by
  constructor
  · intro stopped
    cases stopped with
    | directory nonText =>
        have fails := Settings.fails_covers_iff.mpr nonText
        rw [covered] at fails
        exact absurd fails (not_fails_ok true)
    | start covered' parsed' member unlisted nonText asked =>
        rcases asked with ⟨-, free⟩ | ⟨-, -, specPath, conventional, present, -⟩
        · exact absurd barred (free fault)
        · rcases barred with ⟨specPath', conventional', failed⟩
          cases conventional.symm.trans conventional'
          cases present.symm.trans failed
    | beforeFault covered' parsed' barred' enabled fails =>
        cases parsed.symm.trans parsed'
        exact ⟨enabled, fails⟩
  · rintro ⟨enabled, fails⟩
    exact .beforeFault covered parsed barred enabled fails

/-- Where the spec cannot be looked up, it is the check of contexts that the
settings may stop. -/
theorem ends_scanText_of_isBarred {fault : Project.DiskFault}
    (barred : IsBarred workspace path fault)
    (isSource : Path.isSpecFile path = false) :
    Ends workspace way (scanText workspace settings path text)
      (IsStopped workspace settings path text) := by
  rcases exists_findInsufficientContexts_of_isBarred covered barred sites with
    ⟨few, gives, stops⟩
  refine ⟨_, gives_scanText settings isSource covered parsed gives
    (.of_outcome fun index =>
      outcome_findMissingSpecs_of_isBarred covered barred index isSource), ?_⟩
  rw [isStopped_iff_of_isBarred covered parsed barred, ← stops]
  unfold ifEnabled
  cases settings.enables Cop.sufficientContexts.name <;>
    cases settings.enables Cop.publicMethodHasSpec.name <;>
      cases few <;> simp [bind, Except.bind]

end Covered

theorem ends_scanText_of_isSpec
    (shown : Finding.filePath workspace.project path = .ok file)
    (isSpec : Path.isSpecFile path = true) (text : String) :
    Ends workspace way (scanText workspace settings path text) False := by
  rcases exists_findLetBangs shown text with ⟨findings, found, -⟩
  unfold scanText
  rw [if_pos isSpec]
  split
  · exact (StopsIff.of_gives (.ofDisk found)).ends
  · exact (StopsIff.pure []).ends

theorem ends_scanText_of_not_isSpec
    (shown : Finding.filePath workspace.project path = .ok file)
    (isSource : Path.isSpecFile path = false) (text : String) :
    Ends workspace way (scanText workspace settings path text)
      (IsStopped workspace settings path text) := by
  -- Directories are tried first, and the text is parsed only if one covers.
  cases covers : settings.covers path with
  | error fault =>
      have fails : Fails (settings.covers path) := ⟨fault, covers⟩
      have stopped : IsStopped workspace settings path text :=
        .directory (Settings.fails_covers_iff.mp fails)
      unfold scanText
      rw [isSource, if_neg Bool.false_ne_true, covers]
      exact ⟨_, (Gives.lift _).bind_error, by simp [stopped]⟩
  | ok covered =>
      have askable : ¬ MeetsNonText (Path.isUnder · path)
          settings.coveredDirectories := by
        rw [← Settings.fails_covers_iff, covers]
        exact not_fails_ok covered
      cases covered with
      | false =>
          refine ⟨_, gives_scanText_of_uncovered isSource covers,
            ⟨by simp, fun stopped => ?_⟩⟩
          cases stopped with
          | directory nonText => exact absurd nonText askable
          | start covered => cases covers.symm.trans covered
          | beforeFault covered => cases covers.symm.trans covered
      | true =>
          cases parsed : methodsOf workspace.grammar text with
          | error fault =>
              refine ⟨_, gives_scanText_of_unparsed isSource covers parsed,
                ⟨by simp, fun stopped => ?_⟩⟩
              cases stopped with
              | directory nonText => exact absurd nonText askable
              | start covered parsed' => cases parsed.symm.trans parsed'
              | beforeFault covered parsed' => cases parsed.symm.trans parsed'
          | ok sites =>
              by_cases barred : ∃ fault, IsBarred workspace path fault
              · rcases barred with ⟨fault, barred⟩
                exact ends_scanText_of_isBarred covers parsed barred isSource
              · have free (fault) : ¬ IsBarred workspace path fault :=
                  fun bars => barred ⟨fault, bars⟩
                rw [isStopped_iff_of_not_isBarred covers parsed free]
                unfold scanText
                rw [isSource, if_neg Bool.false_ne_true, covers, parsed]
                refine StopsIff.ends (.after (.ofSettings rfl)
                  (.after (.lift _) ?_))
                refine (stopsIff_findInsufficientContexts free shown
                  covers).bind_if fun insufficient => ?_
                refine ((stopsIff_findMissingSpecs free shown isSource
                  covers).bind_if fun missing => .pure _).congr ?_
                simp only [or_false]

theorem isStoppedAt_iff {place : Project.Place}
    (resolved : workspace.project.resolvePath path = .ok place)
    (read : workspace.project.text? (Project.pathOf place) = some text) :
    IsStoppedAt workspace settings path ↔
      Path.isSpecFile path = false ∧
        IsStopped workspace settings path text := by
  refine and_congr_right fun _ => ⟨?_, fun stopped =>
    ⟨place, text, resolved, read, stopped⟩⟩
  rintro ⟨place', text', resolved', read', stopped⟩
  cases resolved.symm.trans resolved'
  cases read.symm.trans read'
  exact stopped

/-- The scan of a file is stopped by the settings exactly if the file needs an
entry that is no text. -/
theorem ends_scanFile (workspace : Workspace) (way : Structure)
    (settings : Settings) (path : String) :
    Ends workspace way (scanFile workspace settings path)
      (IsStoppedAt workspace settings path) := by
  unfold scanFile
  cases resolved : workspace.project.resolvePath path with
  | error fault =>
      refine ⟨_, (Gives.lift _).bind_error, ⟨nofun, ?_⟩⟩
      rintro ⟨-, place, text, resolved', -⟩
      cases resolved.symm.trans resolved'
  | ok place =>
      rcases exists_filePath resolved with ⟨file, shown⟩
      cases read : workspace.project.text? (Project.pathOf place) with
      | none =>
          refine ⟨.ok [], (Gives.ofDisk rfl).bind ?_, ⟨nofun, ?_⟩⟩
          · rw [read]
            exact .pure []
          · rintro ⟨-, place', text, resolved', read', -⟩
            cases resolved.symm.trans resolved'
            cases read.symm.trans read'
      | some text =>
          have scanned : Ends workspace way
              (scanText workspace settings path text)
              (IsStoppedAt workspace settings path) := by
            rw [isStoppedAt_iff resolved read]
            cases isSpec : Path.isSpecFile path with
            | true => simpa using ends_scanText_of_isSpec shown isSpec text
            | false =>
                simpa using ends_scanText_of_not_isSpec shown isSpec text
          rcases scanned with ⟨result, gives, stops⟩
          refine ⟨result, (Gives.ofDisk rfl).bind ?_, stops⟩
          rw [read]
          exact gives

end Files

/-! ## Scans -/

section Scans

variable {index : SpecIndex}
variable (current : index.IsCurrent workspace way)

include current

/-- The next file stops a scan exactly if the grammar is there and the file
needs an entry that is no text. -/
theorem fails_scanNext_iff (settings : Settings) (path : String)
    (report : Report) :
    (Fails (scanNext workspace settings path report index) ↔
        workspace.grammar.isAvailable = true ∧
          IsStoppedAt workspace settings path) ∧
      ∀ next, scanNext workspace settings path report index = .ok next →
        next.2.IsCurrent workspace way := by
  unfold scanNext
  split
  · rename_i unread
    rw [Bool.and_eq_true, Bool.not_eq_true', Bool.not_eq_true'] at unread
    refine ⟨?_, ?_⟩
    · simp [unread]
    · rintro _ ⟨⟩
      exact current
  · rename_i checkable
    -- Without the grammar only specs come here, and no spec is stopped.
    have available : IsStoppedAt workspace settings path →
        workspace.grammar.isAvailable = true := by
      rintro ⟨isSource, -⟩
      simpa [isSource] using checkable
    rw [and_iff_right_of_imp available]
    rcases ends_scanFile workspace way settings path with
      ⟨result, gives, stops⟩
    rcases gives index current with ⟨given, kept⟩
    have run : (scanFile workspace settings path).run index =
        (result, (outcome (scanFile workspace settings path) index).2) :=
      Prod.ext given rfl
    rw [run, ← stops]
    cases result with
    | ok findings =>
        refine ⟨by simp, ?_⟩
        rintro _ ⟨⟩
        exact kept
    | error fault =>
        cases fault with
        | settings fault => exact ⟨by simp, nofun⟩
        | _ =>
            refine ⟨by simp, ?_⟩
            rintro _ ⟨⟩
            exact kept

/-- A scan of files is stopped by the first that stops it. -/
theorem fails_scanAll_iff (settings : Settings) (files : List String)
    (report : Report) :
    Fails (scanAll workspace settings report index files) ↔
      workspace.grammar.isAvailable = true ∧
        ∃ file ∈ files, IsStoppedAt workspace settings file := by
  induction files generalizing report index with
  | nil => simp [scanAll]
  | cons first rest induction =>
      rcases fails_scanNext_iff current settings first report with
        ⟨stops, keeps⟩
      rw [List.exists_mem_cons_iff, and_or_left, ← stops, scanAll]
      cases next : scanNext workspace settings first report index with
      | error fault => simp
      | ok after =>
          rcases after with ⟨report', later⟩
          simp only [not_fails_ok, false_or]
          exact induction (keeps _ next) report'

end Scans

/-- A scan is stopped where the search for files gets stuck, or by a file that
is found and needs an entry that is no text. -/
theorem fails_scan_iff {settings : Settings} {path : String}
    {exclusions : List Json} :
    Fails (scan workspace settings path exclusions) ↔
      Fails (Project.findFiles workspace.project path Project.sourceEndings
          exclusions) ∨
        ∃ files, Project.findFiles workspace.project path
            Project.sourceEndings exclusions = .ok files ∧
          workspace.grammar.isAvailable = true ∧
          ∃ file ∈ files, IsStoppedAt workspace settings file := by
  have scanned (files : List String) :
      Fails (do
        let report ← (scanAll workspace settings .empty
          (.empty settings.specStructure.name) files).mapError
            ScanFault.settings
        return report.sorted) ↔
        workspace.grammar.isAvailable = true ∧
          ∃ file ∈ files, IsStoppedAt workspace settings file := by
    rw [fails_bind_pure_iff, fails_mapError_iff]
    exact fails_scanAll_iff SpecIndex.isCurrent_empty settings files .empty
  unfold scan
  rw [fails_bind_iff, fails_mapError_iff]
  refine or_congr_right ⟨?_, ?_⟩
  · rintro ⟨files, found, fails⟩
    exact ⟨files, eq_ok_of_mapError_eq_ok found, (scanned files).mp fails⟩
  · rintro ⟨files, found, stopped⟩
    exact ⟨files, by rw [found]; rfl, (scanned files).mpr stopped⟩

end SpecAudit.Audit

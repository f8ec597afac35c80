import SpecAudit.Audit.Scan
import SpecAudit.Proofs.Audit.Current
import SpecAudit.Proofs.Audit.Refusal
import SpecAudit.Proofs.Config.Settings

/-!
# Scans of one file

What a scan of a file comes to depends on the file and on the documents as they
are now.  Where the settings can be used, no check fails: a file is skipped
because its path or its text cannot be read as it should, whichever checks are
disabled.  A disabled check takes its own findings away and no others.
-/

namespace SpecAudit.Config.Settings

/-- The settings with other checks disabled. -/
def disablingOnly (settings : Settings) (disabled : List Json) : Settings :=
  { settings with disabledCops := disabled }

/-- Whether the entries of the settings that are used as texts are texts. -/
structure IsTextual (settings : Settings) : Prop where
  directories : ∀ entry ∈ settings.coveredDirectories,
    ∃ text, entry = .str text
  starts : ∀ entry ∈ settings.excludedStarts, ∃ text, entry = .str text

namespace IsTextual

theorem standard : standard.IsTextual where
  directories := by
    intro entry member
    rcases List.mem_map.mp member with ⟨text, -, rfl⟩
    exact ⟨text, rfl⟩
  starts := by
    intro entry member
    rcases List.mem_map.mp member with ⟨text, -, rfl⟩
    exact ⟨text, rfl⟩

variable {settings : Settings}

theorem exists_covers (textual : settings.IsTextual) (path : String) :
    ∃ covered, settings.covers path = .ok covered := by
  refine exists_of_not_fails fun fails => ?_
  rcases (fails_covers_iff.mp fails).exists_nonText with ⟨entry, member, none⟩
  rcases textual.directories entry member with ⟨text, rfl⟩
  cases none

theorem exists_excludesMethod (textual : settings.IsTextual) (name : String) :
    ∃ excluded, settings.excludesMethod name = .ok excluded := by
  refine exists_of_not_fails fun fails => ?_
  rcases (fails_excludesMethod_iff.mp fails).2.exists_nonText with
    ⟨entry, member, none⟩
  rcases textual.starts entry member with ⟨text, rfl⟩
  cases none

theorem disablingOnly (textual : settings.IsTextual) (disabled : List Json) :
    (settings.disablingOnly disabled).IsTextual :=
  ⟨textual.directories, textual.starts⟩

end IsTextual

end SpecAudit.Config.Settings

namespace SpecAudit.Audit

open SpecAudit.Config (Settings)
open SpecAudit.Method (Site)
open SpecAudit.Spec (Structure)

/-- Whether a finding was made by a check about a file shown by a path. -/
def IsAbout (cop : Cop) (file : String) (finding : Finding) : Prop :=
  finding.detector = cop.name ∧ finding.file = file

variable {workspace : Workspace} {way : Structure} {settings : Settings}
variable {path specPath file text : String} {cop : Cop} {sites : List Site}

/-! ## Checks -/

theorem exists_make (shown : Finding.filePath workspace.project path = .ok file)
    (name : String) (line column : Int) (summary : String)
    (severity : Severity) (detail : Fields) :
    ∃ finding,
      Finding.make workspace.project cop.name path name line column summary
        severity detail = .ok finding ∧ IsAbout cop file finding := by
  rw [Finding.make, shown]
  exact ⟨_, rfl, rfl, rfl⟩

/-- Judging a method is stopped if it cannot be told whether its file is covered
or, where it is, whether the method is left out. -/
theorem stopsIff_auditMethod
    (free : ∀ fault, ¬ IsBarred workspace path fault) (site : Site) :
    StopsIff workspace way (auditMethod workspace settings path site)
      (Fails (settings.covers path) ∨ settings.covers path = .ok true ∧
        Fails (settings.excludesMethod site.name)) := by
  unfold auditMethod
  cases settings.covers path with
  | error fault =>
      exact .inr ⟨.inl (fails_error fault), fault, (Gives.lift _).bind_error⟩
  | ok covered =>
      refine .after (.ofSettings rfl) ?_
      cases covered with
      | false => exact (StopsIff.pure _).congr (by simp)
      | true =>
          simp only [Bool.not_true, Bool.false_eq_true, if_false, not_fails_ok,
            false_or, true_and]
          refine (StopsIff.ofSettings _).before fun excluded => ?_
          split
          · exact ⟨_, .pure _⟩
          · split
            · exact ⟨_, .pure _⟩
            · rename_i conventional
              rcases exists_hasFile_of_not_isBarred free conventional with
                ⟨present, looked⟩
              refine (Gives.ofDisk looked).exists_bind ?_
              split
              · exact ⟨_, .pure _⟩
              · split
                · exact ⟨_, .pure _⟩
                · refine (Gives.forest _).exists_bind ?_
                  split <;> exact ⟨_, .pure _⟩

theorem file_of_diagnostic? {site : Site} {verdict : Verdict}
    {diagnostic : Diagnostic}
    (made : verdict.diagnostic? path site = some diagnostic) :
    diagnostic.file = path := by
  cases verdict with
  | insufficient branches contexts =>
      cases made
      rfl
  | _ => cases made

/-- Where the file can be shown, whatever was judged can be reported. -/
theorem yields_mapM_finding
    (shown : Finding.filePath workspace.project path = .ok file)
    (audited : List (Site × Verdict)) :
    Yields workspace way
      ((diagnostics path audited).mapM fun diagnostic =>
        ofDisk (diagnostic.finding workspace.project))
      fun findings => ∀ finding ∈ findings,
        IsAbout .sufficientContexts file finding := by
  refine .mapM fun diagnostic member => ?_
  rcases List.mem_filterMap.mp member with ⟨⟨site, verdict⟩, -, made⟩
  rw [← file_of_diagnostic? made] at shown
  rcases exists_make shown diagnostic.method diagnostic.line diagnostic.column
    diagnostic.message diagnostic.severity
    [ ("branches", .int diagnostic.branches),
      ("contexts", .int diagnostic.contexts),
      ("missing", .int diagnostic.missing) ] with ⟨finding, found, about⟩
  exact ⟨finding, .ofDisk found, about⟩

theorem yields_findInsufficientContexts (textual : settings.IsTextual)
    (free : ∀ fault, ¬ IsBarred workspace path fault)
    (shown : Finding.filePath workspace.project path = .ok file) :
    Yields workspace way
      (findInsufficientContexts workspace settings path sites)
      fun findings => ∀ finding ∈ findings,
        IsAbout .sufficientContexts file finding := by
  rcases textual.exists_covers path with ⟨covered, covers⟩
  have audited : ∃ values,
      Gives workspace way (auditFile workspace settings path sites)
        (.ok values) := by
    refine (StopsIff.mapM fun site _ =>
      (stopsIff_auditMethod free site).before fun _ => ⟨_, .pure _⟩).exists_gives ?_
    rintro ⟨site, -, fails | ⟨-, fails⟩⟩
    · rw [covers] at fails
      exact not_fails_ok covered fails
    · rcases textual.exists_excludesMethod site.name with ⟨excluded, excludes⟩
      rw [excludes] at fails
      exact not_fails_ok excluded fails
  rcases audited with ⟨values, gives⟩
  exact gives.bind_yields (yields_mapM_finding shown values)

theorem yields_missingSpec (textual : settings.IsTextual)
    (shown : Finding.filePath workspace.project path = .ok file)
    (forest : Spec.Forest) (site : Site) :
    Yields workspace way
      (missingSpec? workspace settings path specPath forest site)
      fun finding? => ∀ finding ∈ finding?,
        IsAbout .publicMethodHasSpec file finding := by
  rcases textual.exists_excludesMethod site.name with ⟨excluded, excludes⟩
  unfold missingSpec?
  split
  · exact .pure (by simp)
  · refine (Gives.ofSettings excludes).bind_yields ?_
    cases excluded with
    | true => exact .pure (by simp)
    | false =>
        simp only [Bool.false_eq_true, if_false]
        split
        · exact .pure (by simp)
        · rcases exists_make shown site.name site.line site.column
            (Finding.missingSpecMessage site.name
              (Path.relativeSpecPath specPath path)) .convention
            [("kind", .str site.kind.name), ("spec_path", .str specPath)]
            with ⟨finding, found, about⟩
          refine (Gives.ofDisk found).bind_yields (.pure ?_)
          simpa using about

theorem yields_findMissingSpecs (textual : settings.IsTextual)
    (free : ∀ fault, ¬ IsBarred workspace path fault)
    (shown : Finding.filePath workspace.project path = .ok file) :
    Yields workspace way (findMissingSpecs workspace settings path sites)
      fun findings => ∀ finding ∈ findings,
        IsAbout .publicMethodHasSpec file finding := by
  have checked : Yields workspace way (isToBeChecked settings path)
      fun _ => True := by
    rcases textual.exists_covers path with ⟨covered, covers⟩
    unfold isToBeChecked
    split
    · exact .pure trivial
    · exact ⟨covered, .ofSettings covers, trivial⟩
  unfold findMissingSpecs
  refine checked.bind fun checked _ => ?_
  cases checked with
  | false => exact .pure (by simp)
  | true =>
      simp only [Bool.not_true, Bool.false_eq_true, if_false]
      cases conventional : Path.specPath? path with
      | none => exact .pure (by simp)
      | some specPath =>
          rcases exists_hasFile_of_not_isBarred free conventional with
            ⟨present, looked⟩
          refine (Gives.ofDisk looked).bind_yields ?_
          split
          · exact .pure (by simp)
          · refine (Gives.forest specPath).bind_yields ?_
            cases forestNow workspace way specPath with
            | none => exact .pure (by simp)
            | some forest =>
                refine (Yields.mapM fun site _ =>
                  yields_missingSpec textual shown forest site).bind
                  fun values facts => .pure ?_
                intro finding member
                rcases List.mem_filterMap.mp member with
                  ⟨finding?, listed, same⟩
                exact facts finding? listed finding same

theorem exists_findLetBangs
    (shown : Finding.filePath workspace.project path = .ok file)
    (text : String) :
    ∃ findings,
      findLetBangs workspace.project workspace.grammar path text =
        .ok findings ∧
      ∀ finding ∈ findings, IsAbout .noLetBang file finding := by
  unfold findLetBangs
  induction letBangCalls workspace.grammar text with
  | nil => exact ⟨[], rfl, by simp⟩
  | cons first rest induction =>
      rcases exists_make shown letBang first.1 first.2 Finding.letBangMessage
        .convention [] with ⟨finding, found, about⟩
      rcases induction with ⟨findings, others, facts⟩
      refine ⟨finding :: findings, ?_, List.forall_mem_cons.mpr ⟨about, facts⟩⟩
      rw [List.mapM_cons, others]
      simp only [found]
      rfl

/-! ## Files -/

section Files

/-- The findings of the checks that are not disabled. -/
def enabledFindings (disabled : List Json) (settings : Settings)
    (findings : List Finding) : List Finding :=
  findings.filter fun finding =>
    (settings.disablingOnly disabled).enables finding.detector

theorem enabledFindings_of_isAbout {disabled : List Json}
    {findings : List Finding}
    (about : ∀ finding ∈ findings, IsAbout cop file finding) :
    enabledFindings disabled settings findings =
      if (settings.disablingOnly disabled).enables cop.name then findings
      else [] := by
  unfold enabledFindings
  split
  · rename_i enabled
    refine List.filter_eq_self.mpr fun finding member => ?_
    rw [(about finding member).1, enabled]
  · rename_i disabled
    refine List.filter_eq_nil_iff.mpr fun finding member => ?_
    rw [(about finding member).1]
    exact disabled

/-- A step that is left out unless it is enabled gives nothing then. -/
theorem Gives.bind_if {α β : Type} {enabled : Bool} {step : Step (List α)}
    {next : List α → Step β} {first : Except Fault (List α)}
    {rest : List α → Except Fault β} (gives : Gives workspace way step first)
    (later : ∀ values, Gives workspace way (next values) (rest values)) :
    Gives workspace way
      (if enabled then step >>= next else Pure.pure [] >>= next)
      ((if enabled then first else .ok []) >>= rest) := by
  cases enabled with
  | false => exact (Gives.pure []).bind (later [])
  | true =>
      cases first with
      | ok values => exact gives.bind (later values)
      | error fault => exact gives.bind_error

/-- Whether a fault makes a scan skip the file; other faults end the scan. -/
def Fault.skipsFile : Fault → Bool
  | .settings _ => false
  | _ => true

/-- Whether the scan of a text is spared a spec that cannot be looked up: none of
the checks that are run looks it up for any method of the text. -/
structure IsSparedIn (workspace : Workspace) (settings : Settings)
    (path text : String) : Prop where
  isSource : Path.isSpecFile path = false
  covered : settings.covers path = .ok true
  barred : ∃ fault, IsBarred workspace path fault
  unchecked : settings.enables Cop.publicMethodHasSpec.name = false
  unneeded : ∃ sites, methodsOf workspace.grammar text = .ok sites ∧
    (settings.enables Cop.sufficientContexts.name = true →
      ∀ site ∈ sites, settings.excludesMethod site.name = .ok true)

/--
Whether a file comes to a result: a scan that disables checks gives the findings
of the others, or the fault for which the file is skipped.  Nothing is found in
a source while the grammar is not loaded.  A scan that is spared the fault finds
nothing in the file.
-/
structure ComesTo (workspace : Workspace) (way : Structure)
    (settings : Settings) (path : String) (isSpared : List Json → Prop)
    (scan : Settings → Step (List Finding))
    (result : Except Fault (List Finding)) : Prop where
  gives : ∀ disabled, ¬ isSpared disabled →
    Gives workspace way (scan (settings.disablingOnly disabled))
      (result.map (enabledFindings disabled settings))
  spares : ∀ disabled, isSpared disabled →
    (∃ fault, result = .error fault) ∧
      Gives workspace way (scan (settings.disablingOnly disabled)) (.ok [])
  shown : ∀ findings, result = .ok findings → ∀ finding ∈ findings,
    Finding.filePath workspace.project path = .ok finding.file
  checked : ∀ findings, result = .ok findings → ∀ finding ∈ findings,
    ∃ cop : Cop, finding.detector = cop.name
  skips : ∀ fault, result = .error fault → fault.skipsFile = true
  silent : workspace.grammar.isAvailable = false →
    Path.isSpecFile path = false →
    ∀ findings, result = .ok findings → findings = []

section Kinds

variable {isSpared : List Json → Prop} {scan : Settings → Step (List Finding)}
variable {fault : Fault}

/-- A file in which nothing is found, whichever checks are disabled. -/
theorem ComesTo.nothing (unspared : ∀ disabled, ¬ isSpared disabled)
    (gives : ∀ disabled,
      Gives workspace way (scan (settings.disablingOnly disabled)) (.ok [])) :
    ComesTo workspace way settings path isSpared scan (.ok []) where
  gives disabled _ := gives disabled
  spares disabled spared := absurd spared (unspared disabled)
  shown := by simp
  checked := by simp
  skips := by simp
  silent := by simp

/-- A file that is skipped unless it is spared. -/
theorem ComesTo.skipped
    (gives : ∀ disabled, ¬ isSpared disabled →
      Gives workspace way (scan (settings.disablingOnly disabled))
        (.error fault))
    (spares : ∀ disabled, isSpared disabled →
      Gives workspace way (scan (settings.disablingOnly disabled)) (.ok []))
    (skips : fault.skipsFile = true) :
    ComesTo workspace way settings path isSpared scan (.error fault) where
  gives := gives
  spares disabled spared := ⟨⟨fault, rfl⟩, spares disabled spared⟩
  shown := by simp
  checked := by simp
  skips := by
    rintro _ ⟨⟩
    exact skips
  silent := by simp

/-- A file that may be checked and in which checks find something. -/
theorem ComesTo.found {findings : List Finding}
    (unspared : ∀ disabled, ¬ isSpared disabled)
    (shown : Finding.filePath workspace.project path = .ok file)
    (about : ∀ finding ∈ findings, ∃ cop, IsAbout cop file finding)
    (checkable : workspace.grammar.isAvailable = true ∨
      Path.isSpecFile path = true)
    (gives : ∀ disabled,
      Gives workspace way (scan (settings.disablingOnly disabled))
        (.ok (enabledFindings disabled settings findings))) :
    ComesTo workspace way settings path isSpared scan (.ok findings) where
  gives disabled _ := gives disabled
  spares disabled spared := absurd spared (unspared disabled)
  shown := by
    rintro _ ⟨⟩ finding member
    rcases about finding member with ⟨cop, isAbout⟩
    rw [isAbout.2, shown]
  checked := by
    rintro _ ⟨⟩ finding member
    rcases about finding member with ⟨cop, isAbout⟩
    exact ⟨cop, isAbout.1⟩
  skips := by simp
  silent := by
    intro unavailable noSpec
    simp [unavailable, noSpec] at checkable

end Kinds

theorem isAvailable_of_methodsOf {grammar : Grammar}
    (parsed : methodsOf grammar text = .ok sites) :
    grammar.isAvailable = true := by
  cases grammar with
  | loaded parse => rfl
  | _ => cases parsed

theorem exists_scanText_of_isSpec
    (shown : Finding.filePath workspace.project path = .ok file)
    (isSpec : Path.isSpecFile path = true) (text : String) :
    ∃ result, ComesTo workspace way settings path
      (fun disabled =>
        IsSparedIn workspace (settings.disablingOnly disabled) path text)
      (scanText workspace · path text) result := by
  rcases exists_findLetBangs shown text with ⟨findings, found, about⟩
  have known (finding) (member : finding ∈ findings) :
      ∃ cop, IsAbout cop file finding :=
    ⟨.noLetBang, about finding member⟩
  have unspared (disabled : List Json) :
      ¬ IsSparedIn workspace (settings.disablingOnly disabled) path text := by
    intro spared
    cases isSpec.symm.trans spared.isSource
  refine ⟨.ok findings,
    .found unspared shown known (.inr isSpec) fun disabled => ?_⟩
  rw [enabledFindings_of_isAbout about]
  unfold scanText
  rw [if_pos isSpec]
  split
  · exact .ofDisk found
  · exact .pure []

/-- What a check gives if it is enabled, and nothing otherwise. -/
def ifEnabled (settings : Settings) (cop : Cop)
    (result : Except Fault (List Finding)) : Except Fault (List Finding) :=
  if settings.enables cop.name then result else .ok []

theorem ifEnabled_ok (findings : List Finding) :
    ifEnabled settings cop (.ok findings) =
      .ok (if settings.enables cop.name then findings else []) := by
  unfold ifEnabled
  split <;> rfl

/-- Nothing is found in a source that is not covered. -/
theorem gives_scanText_of_uncovered
    (isSource : Path.isSpecFile path = false)
    (covers : settings.covers path = .ok false) :
    Gives workspace way (scanText workspace settings path text) (.ok []) := by
  unfold scanText
  rw [isSource, if_neg Bool.false_ne_true]
  exact (Gives.ofSettings covers).bind (.pure [])

/-- The scan of a covered source fails if its methods cannot be listed. -/
theorem gives_scanText_of_unparsed {fault : GrammarFault}
    (isSource : Path.isSpecFile path = false)
    (covers : settings.covers path = .ok true)
    (unparsed : methodsOf workspace.grammar text = .error fault) :
    Gives workspace way (scanText workspace settings path text)
      (.error (.grammar fault)) := by
  unfold scanText
  rw [isSource, if_neg Bool.false_ne_true, unparsed]
  exact (Gives.ofSettings covers).bind (Gives.lift _).bind_error

/-- The scan of a covered source joins what its two checks give, as far as they
are enabled. -/
theorem gives_scanText (settings : Settings)
    {few missing : Except Fault (List Finding)}
    (isSource : Path.isSpecFile path = false)
    (covers : settings.covers path = .ok true)
    (parsed : methodsOf workspace.grammar text = .ok sites)
    (first : Gives workspace way
      (findInsufficientContexts workspace settings path sites) few)
    (second : Gives workspace way
      (findMissingSpecs workspace settings path sites) missing) :
    Gives workspace way (scanText workspace settings path text)
      (ifEnabled settings .sufficientContexts few >>= fun few =>
        ifEnabled settings .publicMethodHasSpec missing >>= fun missing =>
          .ok (few ++ missing)) := by
  unfold scanText
  rw [isSource, if_neg Bool.false_ne_true, parsed]
  refine (Gives.ofSettings covers).bind ((Gives.lift _).bind ?_)
  exact first.bind_if fun insufficient => second.bind_if fun none => .pure _

/-- Where the spec cannot be looked up, the check of contexts fails unless every
method is left out. -/
theorem gives_findInsufficientContexts_of_isBarred
    (textual : settings.IsTextual) {fault : Project.DiskFault}
    (barred : IsBarred workspace path fault)
    (covers : settings.covers path = .ok true) :
    Gives workspace way
      (findInsufficientContexts workspace settings path sites)
      (if ∀ site ∈ sites, settings.excludesMethod site.name = .ok true then
        .ok [] else .error (.path fault)) := by
  split
  · rename_i excludes
    exact .of_outcome fun index =>
      outcome_findInsufficientContexts_of_excluded covers barred index excludes
  · rename_i some
    have needed : ∃ site ∈ sites,
        settings.excludesMethod site.name = .ok false := by
      by_contra all
      refine some fun site member => ?_
      rcases textual.exists_excludesMethod site.name with ⟨excluded, excludes⟩
      cases excluded with
      | true => exact excludes
      | false => exact absurd ⟨site, member, excludes⟩ all
    exact .of_outcome fun index =>
      outcome_findInsufficientContexts_of_isRefused
        (fun site _ => textual.exists_excludesMethod site.name)
        ⟨covers, barred, needed⟩ index

/-- A covered source whose spec cannot be looked up is skipped by every scan
that looks it up. -/
theorem comesTo_scanText_of_isBarred (textual : settings.IsTextual)
    {fault : Project.DiskFault} (barred : IsBarred workspace path fault)
    (isSource : Path.isSpecFile path = false)
    (covers : settings.covers path = .ok true)
    (parsed : methodsOf workspace.grammar text = .ok sites) :
    ComesTo workspace way settings path
      (fun disabled =>
        IsSparedIn workspace (settings.disablingOnly disabled) path text)
      (scanText workspace · path text) (.error (.path fault)) := by
  have scanned (disabled : List Json) : Gives workspace way _ _ :=
    gives_scanText (settings.disablingOnly disabled) isSource covers parsed
      (gives_findInsufficientContexts_of_isBarred
        (textual.disablingOnly disabled) barred covers)
      (.of_outcome fun index =>
        outcome_findMissingSpecs_of_isBarred covers barred index isSource)
  refine .skipped (fun disabled unspared => ?_) (fun disabled spared => ?_) rfl
  · convert scanned disabled using 1
    unfold ifEnabled
    by_cases unchecked : (settings.disablingOnly disabled).enables
        Cop.publicMethodHasSpec.name = true
    · rw [if_pos unchecked]
      split <;> [split; skip] <;> rfl
    · have needed : ¬ ((settings.disablingOnly disabled).enables
            Cop.sufficientContexts.name = true →
          ∀ site ∈ sites, (settings.disablingOnly disabled).excludesMethod
            site.name = .ok true) :=
        fun unneeded => unspared ⟨isSource, covers, ⟨fault, barred⟩,
          by simpa using unchecked, sites, parsed, unneeded⟩
      rcases Classical.not_imp.mp needed with ⟨enabled, some⟩
      rw [if_neg unchecked, if_pos enabled, if_neg some]
      rfl
  · rcases spared.unneeded with ⟨sites', parsed', unneeded⟩
    cases parsed.symm.trans parsed'
    convert scanned disabled using 1
    unfold ifEnabled
    rw [spared.unchecked]
    split
    · rename_i enabled
      rw [if_pos (unneeded enabled)]
      rfl
    · rfl

theorem exists_scanText_of_not_isSpec (textual : settings.IsTextual)
    (shown : Finding.filePath workspace.project path = .ok file)
    (isSource : Path.isSpecFile path = false) (text : String) :
    ∃ result, ComesTo workspace way settings path
      (fun disabled =>
        IsSparedIn workspace (settings.disablingOnly disabled) path text)
      (scanText workspace · path text) result := by
  rcases textual.exists_covers path with ⟨covered, covers⟩
  cases covered with
  | false =>
      refine ⟨.ok [], .nothing (fun disabled spared => ?_) fun disabled =>
        gives_scanText_of_uncovered isSource covers⟩
      cases covers.symm.trans spared.covered
  | true =>
      cases parsed : methodsOf workspace.grammar text with
      | error fault =>
          refine ⟨.error (.grammar fault), .skipped (fun disabled _ =>
            gives_scanText_of_unparsed isSource covers parsed)
            (fun disabled spared => ?_) rfl⟩
          rcases spared.unneeded with ⟨sites, parsed', -⟩
          cases parsed.symm.trans parsed'
      | ok sites =>
          by_cases barred : ∃ fault, IsBarred workspace path fault
          · rcases barred with ⟨fault, barred⟩
            exact ⟨_, comesTo_scanText_of_isBarred textual barred isSource
              covers parsed⟩
          have free (fault) : ¬ IsBarred workspace path fault :=
            fun bars => barred ⟨fault, bars⟩
          rcases yields_findInsufficientContexts textual free shown with
            ⟨insufficient, few, aboutFew⟩
          rcases yields_findMissingSpecs textual free shown with
            ⟨missing, none, aboutNone⟩
          have known (finding) (member : finding ∈ insufficient ++ missing) :
              ∃ cop, IsAbout cop file finding :=
            (List.mem_append.mp member).elim
              (fun member => ⟨_, aboutFew finding member⟩)
              (fun member => ⟨_, aboutNone finding member⟩)
          have available := isAvailable_of_methodsOf parsed
          refine ⟨.ok (insufficient ++ missing),
            .found (fun disabled spared => barred spared.barred) shown known
              (.inl available) fun disabled => ?_⟩
          have kept : enabledFindings disabled settings
                (insufficient ++ missing) =
              enabledFindings disabled settings insufficient ++
                enabledFindings disabled settings missing :=
            List.filter_append _ _
          rw [kept, enabledFindings_of_isAbout aboutFew,
            enabledFindings_of_isAbout aboutNone]
          convert gives_scanText (settings.disablingOnly disabled) isSource
            covers parsed few none using 1
          rw [ifEnabled_ok, ifEnabled_ok]
          rfl

/-- A file whose path can be resolved can be shown. -/
theorem exists_filePath {place : Project.Place}
    (resolved : workspace.project.resolvePath path = .ok place) :
    ∃ file, Finding.filePath workspace.project path = .ok file := by
  unfold Finding.filePath
  rw [resolved]
  split <;> exact ⟨_, rfl⟩

/-- Whether the scan of the file that a path leads to is spared a spec that
cannot be looked up. -/
def IsSpared (workspace : Workspace) (settings : Settings) (path : String) :
    Prop :=
  ∃ place text, workspace.project.resolvePath path = .ok place ∧
    workspace.project.text? (Project.pathOf place) = some text ∧
    IsSparedIn workspace settings path text

/-- What a file comes to, which depends on nothing that was scanned before. -/
theorem exists_scanFile (textual : settings.IsTextual) (path : String) :
    ∃ result, ComesTo workspace way settings path
      (fun disabled =>
        IsSpared workspace (settings.disablingOnly disabled) path)
      (scanFile workspace · path) result := by
  cases resolved : workspace.project.resolvePath path with
  | error fault =>
      refine ⟨.error (.path fault), .skipped (fun disabled _ => ?_)
        (fun disabled spared => ?_) rfl⟩
      · unfold scanFile
        rw [resolved]
        exact (Gives.lift _).bind_error
      · rcases spared with ⟨place, text, resolved', -⟩
        cases resolved.symm.trans resolved'
  | ok place =>
      rcases exists_filePath resolved with ⟨file, shown⟩
      cases read : workspace.project.text? (Project.pathOf place) with
      | none =>
          refine ⟨.ok [], .nothing (fun disabled spared => ?_)
            fun disabled => ?_⟩
          · rcases spared with ⟨place', text, resolved', read', -⟩
            cases resolved.symm.trans resolved'
            cases read.symm.trans read'
          · unfold scanFile
            rw [resolved]
            refine (Gives.ofDisk rfl).bind ?_
            rw [read]
            exact .pure []
      | some text =>
          have scanned : ∃ result, ComesTo workspace way settings path
              (fun disabled =>
        IsSparedIn workspace (settings.disablingOnly disabled) path text)
              (scanText workspace · path text) result := by
            cases isSpec : Path.isSpecFile path with
            | true => exact exists_scanText_of_isSpec shown isSpec text
            | false =>
                exact exists_scanText_of_not_isSpec textual shown isSpec text
          have spared_iff (disabled : List Json) :
              IsSpared workspace (settings.disablingOnly disabled) path ↔
                IsSparedIn workspace (settings.disablingOnly disabled) path
                  text := by
            constructor
            · rintro ⟨place', text', resolved', read', spared⟩
              cases resolved.symm.trans resolved'
              cases read.symm.trans read'
              exact spared
            · exact fun spared => ⟨place, text, resolved, read, spared⟩
          have goes {settings : Settings}
              {given : Except Fault (List Finding)}
              (gives : Gives workspace way (scanText workspace settings path
                text) given) :
              Gives workspace way (scanFile workspace settings path)
                given := by
            unfold scanFile
            rw [resolved]
            refine (Gives.ofDisk rfl).bind ?_
            rw [read]
            exact gives
          rcases scanned with ⟨result, comes⟩
          refine ⟨result, { comes with gives := ?_, spares := ?_ }⟩
          · intro disabled unspared
            rw [spared_iff] at unspared
            exact goes (comes.gives disabled unspared)
          · intro disabled spared
            rw [spared_iff] at spared
            rcases comes.spares disabled spared with ⟨failed, gives⟩
            exact ⟨failed, goes gives⟩

end Files

end SpecAudit.Audit

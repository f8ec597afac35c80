import SpecAudit.Command.Run
import SpecAudit.Proofs.Audit.Stopping
import SpecAudit.Proofs.Config.Taken
import SpecAudit.Proofs.Json.Refusal
import SpecAudit.Proofs.Project.Lookup
import SpecAudit.Proofs.Project.Stuck

/-!
# How a scan ends

A scan ends with an exit status that says whether something was found, unless
the configuration stops it.  It is stopped by an integer that is too long, by a
collection among names, by a pattern that cannot be looked for in a path that
the search comes to, and by an entry that is no text and is needed for a file.
A configuration whose lists hold texts alone stops no scan of any project.  Apart
from the configuration, a scan ends without a status only where the path of the
configuration file or the path that it is asked for cannot be looked up.
-/

namespace SpecAudit.Command

open SpecAudit.Audit (Workspace)
open SpecAudit.Config (Settings)
open SpecAudit.Project (IsShort findFiles lexically lookUp reach sourceEndings)
open SpecAudit.Report (Style)

/-- The path that a scan is asked for. -/
def Parsed.path (parsed : Parsed) : String :=
  (parsed.texts "--path").getLastD "."

/-- The patterns of a scan: those that are given and those of the
configuration. -/
def Parsed.patterns (parsed : Parsed) (fields : Fields) : List Json :=
  exclusions fields (parsed.texts "--exclude")

/-- The settings of a scan that is asked for some checks. -/
def Parsed.narrowed (parsed : Parsed) (settings : Settings) : Settings :=
  onlySettings settings (parsed.texts "--only")

/-- Whether a path that a scan starts from cannot be looked up: that of the
configuration file, or the one that it is asked for. -/
inductive IsRefused (workspace : Workspace) (parsed : Parsed) : Prop
  | config {fault : Project.DiskFault}
      (refused : lookUp workspace.project.disk
        (configNames workspace.project) = .error fault) :
      IsRefused workspace parsed
  | path {fault : Project.DiskFault}
      (refused : workspace.project.hasFile parsed.path = .error fault) :
      IsRefused workspace parsed

/-- Whether the configuration of a project stops a scan of it. -/
inductive IsStopped (workspace : Workspace) (parsed : Parsed) : Prop
  | unreadable {digits : Nat} (long : Json.maxDigits < digits)
      (refused : Config.load (configContent? workspace.project) =
        .error (.integerTooLong digits)) :
      IsStopped workspace parsed
  | nestedName {fields : Fields} {name : String} {items : List Json}
      {item : Json}
      (loaded : Config.load (configContent? workspace.project) = .ok fields)
      (listed : fields.get? name = some (.arr items))
      (names : name = "excluded_methods" ∨ name = "disabled_cops")
      (member : item ∈ items) (nested : Config.isPlain item = false) :
      IsStopped workspace parsed
  | pattern {fields : Fields} {place : Project.Place}
      {entry : Project.Entry}
      (loaded : Config.load (configContent? workspace.project) = .ok fields)
      (reached : reach workspace.project.disk
          (workspace.project.names parsed.path) = .ok (.present place))
      (stands : workspace.project.disk.at? place = some entry)
      (stuck : (Project.Search.mk workspace.project sourceEndings
          (parsed.patterns fields)).GetsStuck
        (lexically [] (workspace.project.names parsed.path)) place entry) :
      IsStopped workspace parsed
  | entry {fields : Fields} {settings : Settings} {files : List String}
      {file : String}
      (loaded : Config.load (configContent? workspace.project) = .ok fields)
      (taken : Settings.ofConfig fields = .ok settings)
      (found : findFiles workspace.project parsed.path sourceEndings
        (parsed.patterns fields) = .ok files)
      (available : workspace.grammar.isAvailable = true)
      (member : file ∈ files)
      (stopped : Audit.IsStoppedAt workspace (parsed.narrowed settings) file) :
      IsStopped workspace parsed

section Stopped

variable {workspace : Workspace} {parsed : Parsed} {fields : Fields}

/-- Where the configuration can be loaded, a scan is stopped when its settings
are taken or when it runs. -/
theorem isStopped_iff_of_loadConfig
    (loaded : loadConfig workspace.project = .ok fields) :
    IsRefused workspace parsed ∨ IsStopped workspace parsed ↔
      Fails (Settings.ofConfig fields) ∨
        ∃ settings, Settings.ofConfig fields = .ok settings ∧
          Fails (Audit.scan workspace (parsed.narrowed settings) parsed.path
            (parsed.patterns fields)) := by
  rcases loadConfig_eq_ok_iff.mp loaded with ⟨⟨found, looked⟩, loaded⟩
  rcases (Config.isLoadable_of_load loaded).exists_hasLists with
    ⟨covered, methods, starts, cops, lists⟩
  constructor
  · intro stopped
    -- Settings are taken before the scan, so a collection among names hides
    -- whatever else would stop it.
    by_cases nested : Fails (Settings.ofConfig fields)
    · exact .inl nested
    rcases exists_of_not_fails nested with ⟨settings, taken⟩
    refine .inr ⟨settings, taken, Audit.fails_scan_iff.mpr ?_⟩
    rcases stopped with refused | stopped
    · cases refused with
      | config refused => cases looked.symm.trans refused
      | path refused =>
          exact .inl (Project.fails_findFiles_iff.mpr (.inl ⟨_, refused⟩))
    cases stopped with
    | unreadable long refused => cases loaded.symm.trans refused
    | nestedName loaded' listed names member plain =>
        cases loaded.symm.trans loaded'
        refine absurd (lists.fails_ofConfig_iff.mpr ?_) nested
        rcases names with rfl | rfl
        · cases lists.methods.symm.trans listed
          exact .inl ⟨_, member, plain⟩
        · cases lists.cops.symm.trans listed
          exact .inr ⟨_, member, plain⟩
    | pattern loaded' reached stands stuck =>
        cases loaded.symm.trans loaded'
        exact .inl (Project.fails_findFiles_iff.mpr
          (.inr ⟨_, _, reached, stands, stuck⟩))
    | entry loaded' taken' found available member stopped =>
        cases loaded.symm.trans loaded'
        cases taken.symm.trans taken'
        exact .inr ⟨_, found, available, _, member, stopped⟩
  · rintro (nested | ⟨settings, taken, fails⟩)
    · rcases lists.fails_ofConfig_iff.mp nested with
        ⟨item, member, plain⟩ | ⟨item, member, plain⟩
      · exact .inr (.nestedName loaded lists.methods (.inl rfl) member plain)
      · exact .inr (.nestedName loaded lists.cops (.inr rfl) member plain)
    · rcases Audit.fails_scan_iff.mp fails with
        stuck | ⟨files, found, available, file, member, stopped⟩
      · rcases Project.fails_findFiles_iff.mp stuck with
          ⟨fault, refused⟩ | ⟨place, entry, reached, stands, stuck⟩
        · exact .inl (.path refused)
        · exact .inr (.pattern loaded reached stands stuck)
      · exact .inr (.entry loaded taken found available member stopped)

/-- How a scan ends: with the status that says whether something was found, or
with a fault if the configuration stops it. -/
def EndsUnless (stops : Prop) (ending : Ending) : Prop :=
  (¬ stops ∧ (ending = .exit 0 ∨ ending = .exit 1)) ∨
    (stops ∧ ∃ fault, ending = .fault fault)

theorem endsUnless_runScan (workspace : Workspace) (style : Style)
    (fields : Fields) (parsed : Parsed) :
    EndsUnless
      (Fails (Settings.ofConfig fields) ∨
        ∃ settings, Settings.ofConfig fields = .ok settings ∧
          Fails (Audit.scan workspace (parsed.narrowed settings) parsed.path
            (parsed.patterns fields)))
      (runScan workspace style fields parsed).ending := by
  unfold runScan
  cases taken : Settings.ofConfig fields with
  | error fault => exact .inr ⟨.inl (fails_error fault), _, rfl⟩
  | ok settings =>
      have same : (Fails (Except.ok settings : Except Config.SettingsFault _) ∨
          ∃ settings', Except.ok settings =
              (.ok settings' : Except Config.SettingsFault _) ∧
            Fails (Audit.scan workspace (parsed.narrowed settings') parsed.path
              (parsed.patterns fields))) ↔
          Fails (Audit.scan workspace (parsed.narrowed settings) parsed.path
            (parsed.patterns fields)) := by
        simp
      rw [same]
      unfold Parsed.narrowed Parsed.path Parsed.patterns
      dsimp only
      split
      · rename_i fault scanned
        rw [scanned]
        exact .inr ⟨fails_error _, _, rfl⟩
      · rename_i fault scanned
        rw [scanned]
        exact .inr ⟨fails_error _, _, rfl⟩
      · rename_i report scanned
        rw [scanned]
        refine .inl ⟨not_fails_ok report, ?_⟩
        dsimp only
        split
        · exact .inl rfl
        · exact .inr rfl

end Stopped

/-- A scan that is asked for some checks uses the lists as they are. -/
theorem narrowed_lists (parsed : Parsed) (settings : Settings) :
    (parsed.narrowed settings).coveredDirectories =
        settings.coveredDirectories ∧
      (parsed.narrowed settings).excludedStarts = settings.excludedStarts := by
  unfold Parsed.narrowed onlySettings
  split <;> exact ⟨rfl, rfl⟩

/-! ## Configurations that stop no scan -/

/-- Whether the lists that the keys of a configuration have hold texts alone. -/
def HoldsTexts (fields : Fields) : Prop :=
  ∀ name items, (Config.key? name).isSome = true →
    fields.get? name = some (.arr items) →
    ∀ item ∈ items, ∃ text, item = .str text

section Texts

variable {workspace : Workspace} {parsed : Parsed} {fields : Fields}
variable (texts : HoldsTexts fields)

include texts

theorem HoldsTexts.text_of_mem_patterns :
    ∀ pattern ∈ parsed.patterns fields, ∃ text, pattern = .str text := by
  intro pattern member
  rcases List.mem_append.mp member with given | configured
  · rcases List.mem_map.mp given with ⟨text, -, rfl⟩
    exact ⟨text, rfl⟩
  · have listed := (List.mem_filter.mp configured).1
    split at listed
    · rename_i items found
      exact texts "exclude" items rfl found pattern listed
    · cases listed

/-- An entry that is no text is in none of the lists. -/
theorem HoldsTexts.not_meetsNonText {fits : String → Bool} {name : String}
    {items : List Json} (known : (Config.key? name).isSome = true)
    (listed : fields.get? name = some (.arr items)) :
    ¬ Config.MeetsNonText fits items := by
  intro meets
  rcases meets.exists_nonText with ⟨entry, member, nonText⟩
  rcases texts name items known listed entry member with ⟨text, rfl⟩
  cases nonText

/-- A configuration whose lists hold texts alone stops no scan. -/
theorem HoldsTexts.not_isStopped
    (loaded : Config.load (configContent? workspace.project) = .ok fields) :
    ¬ IsStopped workspace parsed := by
  intro stopped
  cases stopped with
  | unreadable long refused => cases loaded.symm.trans refused
  | nestedName loaded' listed names member nested =>
      cases loaded.symm.trans loaded'
      have isText := texts _ _ (by rcases names with rfl | rfl <;> rfl) listed _
        member
      rcases isText with ⟨text, rfl⟩
      cases nested
  | pattern loaded' reached stands stuck =>
      cases loaded.symm.trans loaded'
      exact Project.Search.not_getsStuck texts.text_of_mem_patterns stuck
  | @entry _ settings _ _ loaded' taken found available member stopped =>
      cases loaded.symm.trans loaded'
      rcases (Config.isLoadable_of_load loaded).exists_hasLists with
        ⟨covered, methods, starts, cops, lists⟩
      rcases lists.of_ofConfig taken with ⟨sameDirectories, sameStarts⟩
      rcases narrowed_lists parsed settings with ⟨directories, starts⟩
      rcases stopped with ⟨-, place, text, -, -, stopped⟩
      cases stopped with
      | directory nonText =>
          rw [directories, sameDirectories] at nonText
          exact texts.not_meetsNonText rfl lists.covered nonText
      | start covers parsed' member unlisted nonText asked =>
          rw [starts, sameStarts] at nonText
          exact texts.not_meetsNonText rfl lists.starts nonText
      | beforeFault covers parsed' barred enabled fails =>
          rcases fails with ⟨before, site, after, -, -, fails⟩
          have nonText := (Settings.fails_excludesMethod_iff.mp
            (Settings.fails_keepsMethod_iff.mp fails)).2
          rw [starts, sameStarts] at nonText
          exact texts.not_meetsNonText rfl lists.starts nonText

end Texts

/-! ## Runs -/

/-- Where the configuration cannot be loaded, its file cannot be looked up or
holds an integer that is too long, and no status is given. -/
theorem endsUnless_of_loadConfig {workspace : Workspace} (style : Style)
    (parsed : Parsed) {fault : Fault}
    (unloaded : loadConfig workspace.project = .error fault) :
    EndsUnless (IsRefused workspace parsed ∨ IsStopped workspace parsed)
      (failed style workspace.project "" fault).ending := by
  unfold loadConfig at unloaded
  cases looked : lookUp workspace.project.disk
      (configNames workspace.project) with
  | error refused =>
      rw [looked] at unloaded
      cases unloaded
      exact .inr ⟨.inl (.config looked), _, rfl⟩
  | ok found =>
      rw [looked] at unloaded
      cases loaded : Config.load (configContent? workspace.project) with
      | error unread =>
          rw [loaded] at unloaded
          cases unloaded
          rcases Config.exists_long_of_load loaded with ⟨digits, rfl, long⟩
          exact .inr ⟨.inr (.unreadable long loaded), _, rfl⟩
      | ok fields =>
          rw [loaded] at unloaded
          cases unloaded

/-- On an ordinary disk a scan that starts from short paths is not refused. -/
theorem not_isRefused {workspace : Workspace} {parsed : Parsed}
    (ordinary : workspace.project.disk.IsOrdinary)
    (shortConfig : IsShort (configNames workspace.project))
    (shortPath : IsShort (workspace.project.names parsed.path)) :
    ¬ IsRefused workspace parsed := by
  intro refused
  cases refused with
  | config refused =>
      rcases Project.exists_lookUp ordinary shortConfig with ⟨found, looked⟩
      cases looked.symm.trans refused
  | path refused =>
      rcases Project.exists_hasFile ordinary shortPath with ⟨isFile, asked⟩
      cases asked.symm.trans refused

/-- A configuration with a list among the names of methods. -/
def nestedFields : Fields :=
  [("excluded_methods", .arr [.arr []])]

/-- A project that holds nothing but this configuration. -/
def nestedProject : Project where
  disk := .directory [(".specparity", .directory
    [("config.json", .file (Config.saved nestedFields).toUTF8)])]
  root := []

end SpecAudit.Command

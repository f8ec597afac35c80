import SpecAudit.Proofs.Audit.Verdict
import SpecAudit.Proofs.Spec.ContextCount

/-!
# Methods between the two checks

The check of contexts says nothing about a method without contexts: it leaves
the method to the check of existence.  That check reports the method unless
the spec mentions it.  So the methods without contexts that neither check
reports are those that a spec mentions and describes by empty groups alone.
-/

namespace SpecAudit.Audit

open SpecAudit.Config (Settings)
open SpecAudit.Method (MethodKind Site countBranches)
open SpecAudit.Spec (Block Forest)

variable {workspace : Workspace} {settings : Settings}
variable {path specPath file : String} {forest : Forest}
variable {index start : SpecIndex} {site : Site} {sites : List Site}

/-! ## Excluded names -/

theorem anyStarts_of_eq_false {name : String} (other : String) :
    ∀ {entries : List Json},
      Settings.anyStarts name entries = .ok false →
      ∃ excluded, Settings.anyStarts other entries = .ok excluded
  | [], _ => ⟨false, rfl⟩
  | entry :: rest, tried => by
      cases entry with
      | str prefix' =>
          rw [Settings.anyStarts] at tried
          split at tried
          · cases tried
          · rcases anyStarts_of_eq_false other tried with ⟨excluded, answered⟩
            rw [Settings.anyStarts]
            split
            · exact ⟨true, rfl⟩
            · exact ⟨excluded, answered⟩
      | _ => cases tried

/-- Settings that leave one name in can be asked about any. -/
theorem excludesMethod_of_eq_false {name : String}
    (kept : settings.excludesMethod name = .ok false) (other : String) :
    ∃ excluded, settings.excludesMethod other = .ok excluded := by
  unfold Settings.excludesMethod at kept ⊢
  split at kept
  · cases kept
  · split
    · exact ⟨true, rfl⟩
    · exact anyStarts_of_eq_false other kept

/-! ## The findings of the check of existence -/

/-- The finding about a method that its spec does not mention. -/
def unmentionedFinding (path specPath file : String) (site : Site) :
    Finding where
  id :=
    Finding.identifier Cop.publicMethodHasSpec.name file site.name site.line
  detector := Cop.publicMethodHasSpec.name
  file := file
  line := site.line
  column := site.column
  name := site.name
  severity := .convention
  summary :=
    Finding.missingSpecMessage site.name (Path.relativeSpecPath specPath path)
  detail := [("kind", .str site.kind.name), ("spec_path", .str specPath)]

/-- Whether a method is public, not left out, and not mentioned. -/
def isReported (settings : Settings) (forest : Forest) (path : String)
    (site : Site) : Bool :=
  site.isPublic && (settings.excludesMethod site.name).toOption == some false
    && !isMentioned forest path site

theorem outcome_missingSpecFinding (index : SpecIndex) :
    outcome (missingSpecFinding workspace path specPath site) index =
      (((Finding.filePath workspace.project path).map
          (unmentionedFinding path specPath · site)).mapError .path, index) := by
  unfold missingSpecFinding Finding.make
  cases Finding.filePath workspace.project path <;> rfl

theorem outcome_missingSpec
    (usable : ∃ excluded, settings.excludesMethod site.name = .ok excluded)
    (index : SpecIndex) :
    outcome (missingSpec? workspace settings path specPath forest site) index =
      if isReported settings forest path site then
        outcome (some <$> missingSpecFinding workspace path specPath site) index
      else (.ok none, index) := by
  rcases usable with ⟨excluded, answered⟩
  unfold missingSpec? isReported
  rw [answered]
  cases site.isPublic <;> cases excluded <;>
    cases isMentioned forest path site <;> rfl

private theorem filterMap_map_ite {α β : Type} (keeps : α → Bool)
    (made : α → β) (list : List α) :
    (list.map fun item =>
        if keeps item then some (made item) else none).filterMap id =
      (list.filter keeps).map made := by
  induction list with
  | nil => rfl
  | cons first rest induction =>
      cases kept : keeps first <;> simp_all

theorem outcome_findMissingSpecs
    (notSpec : Path.isSpecFile path = false)
    (covered : settings.covers path = .ok true)
    (conventional : Path.specPath? path = some specPath)
    (present : workspace.project.hasFile specPath = .ok true)
    (read : start.given workspace specPath = .ok (some forest)) :
    outcome (findMissingSpecs workspace settings path sites) start =
      outcome
        (List.filterMap id <$>
          sites.mapM (missingSpec? workspace settings path specPath forest))
        (start.keep specPath (some forest)) := by
  have checked : outcome (isToBeChecked settings path) start =
      (.ok true, start) := by
    rw [isToBeChecked, notSpec, covered]
    rfl
  unfold findMissingSpecs
  rw [outcome_bind_of_ok checked, conventional]
  simp only [Bool.not_true, Bool.false_eq_true, if_false, present]
  rw [outcome_bind_of_ok (outcome_ofDisk_ok true start)]
  simp only [Bool.not_true, Bool.false_eq_true, if_false]
  rw [outcome_bind_of_ok (SpecIndex.outcome_forest_of_ok read)]
  rfl

/--
Where the file can be shown, the findings are those about the methods to be
reported, in their order.
-/
theorem outcome_mapM_missingSpec
    (usable : ∀ site ∈ sites,
      ∃ excluded, settings.excludesMethod site.name = .ok excluded)
    (shown : Finding.filePath workspace.project path = .ok file) :
    outcome
        (List.filterMap id <$>
          sites.mapM (missingSpec? workspace settings path specPath forest))
        index =
      (.ok ((sites.filter (isReported settings forest path)).map
          (unmentionedFinding path specPath file)), index) := by
  have each : ∀ site ∈ sites,
      outcome (missingSpec? workspace settings path specPath forest site)
          index =
        (.ok (if isReported settings forest path site then
            some (unmentionedFinding path specPath file site) else none),
          index) := by
    intro site member
    have made : outcome (missingSpecFinding workspace path specPath site)
        index = (.ok (unmentionedFinding path specPath file site), index) := by
      rw [outcome_missingSpecFinding, shown]
      rfl
    rw [outcome_missingSpec (usable site member), map_eq_pure_bind,
      outcome_bind_of_ok made]
    cases isReported settings forest path site <;> rfl
  rw [map_eq_pure_bind, outcome_bind_of_ok (outcome_mapM each),
    filterMap_map_ite]
  rfl

/-- Where it cannot, the first method to be reported ends the check. -/
theorem outcome_mapM_missingSpec_of_error {fault : Project.DiskFault}
    (usable : ∀ site ∈ sites,
      ∃ excluded, settings.excludesMethod site.name = .ok excluded)
    (hidden : Finding.filePath workspace.project path = .error fault)
    (reported : ∃ site ∈ sites, isReported settings forest path site = true) :
    outcome
        (List.filterMap id <$>
          sites.mapM (missingSpec? workspace settings path specPath forest))
        index =
      (.error (.path fault), index) := by
  have fails (site : Site) :
      outcome (some <$> missingSpecFinding workspace path specPath site)
          index = (.error (.path fault), index) := by
    rw [map_eq_pure_bind]
    apply outcome_bind_of_error
    rw [outcome_missingSpecFinding, hidden]
    rfl
  rw [map_eq_pure_bind]
  apply outcome_bind_of_error
  apply outcome_mapM_of_error
  · intro site member
    rw [outcome_missingSpec (usable site member), fails]
    cases isReported settings forest path site with
    | true => exact .inr rfl
    | false => exact .inl ⟨none, rfl⟩
  · rcases reported with ⟨site, member, isReported⟩
    refine ⟨site, member, ?_⟩
    rw [outcome_missingSpec (usable site member), if_pos isReported, fails]

theorem isReported_iff
    (isPublic : site.isPublic = true)
    (kept : settings.excludesMethod site.name = .ok false) :
    isReported settings forest path site = true ↔
      isMentioned forest path site = false := by
  simp [isReported, isPublic, kept, Except.toOption]

theorem unmentionedFinding_eq {other : Site}
    (same : unmentionedFinding path specPath file other =
      unmentionedFinding path specPath file site) :
    other.kind = site.kind ∧ other.name = site.name := by
  simp only [unmentionedFinding, Finding.mk.injEq, List.cons.injEq,
    Prod.mk.injEq, Json.str.injEq] at same
  rcases same with ⟨-, -, -, -, -, names, -, -, ⟨-, kinds⟩, -⟩
  refine ⟨?_, names⟩
  cases ofOther : other.kind <;> cases ofSite : site.kind <;>
    simp_all [MethodKind.name]

theorem isMentioned_eq {other : Site} (kinds : other.kind = site.kind)
    (names : other.name = site.name) :
    isMentioned forest path other = isMentioned forest path site := by
  rw [isMentioned, isMentioned, kinds, names]

/-- Of a public method that is not left out, a finding is made if no mention is. -/
theorem unmentionedFinding_mem_iff
    (listed : site ∈ sites)
    (isPublic : site.isPublic = true)
    (kept : settings.excludesMethod site.name = .ok false) :
    unmentionedFinding path specPath file site ∈
        (sites.filter (isReported settings forest path)).map
          (unmentionedFinding path specPath file) ↔
      isMentioned forest path site = false := by
  constructor
  · intro found
    rcases List.mem_map.mp found with ⟨other, reported, same⟩
    rcases unmentionedFinding_eq same with ⟨kinds, names⟩
    have unmentioned : isMentioned forest path other = false := by
      have reported := (List.mem_filter.mp reported).2
      simp only [isReported, Bool.and_eq_true, Bool.not_eq_true'] at reported
      exact reported.2
    rw [← isMentioned_eq kinds names, unmentioned]
  · intro unmentioned
    apply List.mem_map_of_mem
    exact List.mem_filter.mpr
      ⟨listed, (isReported_iff isPublic kept).mpr unmentioned⟩

/-- A mentioned method without contexts is described by empty groups alone. -/
theorem described_of_isMentioned
    (uncounted : forest.countContexts site.name = 0)
    (mentioned : isMentioned forest path site = true) :
    forest.methodGroups none site.name ≠ [] ∧
      ∀ group ∈ forest.methodGroups none site.name, group.children = [] := by
  rcases Spec.Forest.cases_of_countContexts_eq_zero uncounted with
    ⟨undescribed, untested⟩ | described
  · have unmentioned (kind : MethodKind) :
        forest.mentions (some kind) site.name = false := by
      rw [Spec.Forest.mentions, untested,
        Spec.Forest.methodGroups_eq_nil_of_none undescribed kind]
      rfl
    rw [isMentioned, unmentioned, unmentioned] at mentioned
    simp at mentioned
  · exact described

/--
A public method for which the check of contexts finds none is reported by the
check of existence exactly if its spec does not mention it.  A spec that does
mention it describes it by empty groups alone, and then neither check reports
the method.
-/
theorem outcome_findMissingSpecs_of_unspecced {later : SpecIndex}
    {branches : Nat}
    (notSpec : Path.isSpecFile path = false)
    (listed : site ∈ sites)
    (isPublic : site.isPublic = true)
    (audited : outcome (auditMethod workspace settings path site) index =
      (.ok (.unspecced branches), later))
    (same : ∀ spec, start.given workspace spec = index.given workspace spec) :
    ∃ specPath forest,
      Path.specPath? path = some specPath ∧
      start.given workspace specPath = .ok (some forest) ∧
      (isMentioned forest path site = true →
        forest.methodGroups none site.name ≠ [] ∧
          ∀ group ∈ forest.methodGroups none site.name,
            group.children = []) ∧
      (∀ file, Finding.filePath workspace.project path = .ok file →
        ∃ findings,
          outcome (findMissingSpecs workspace settings path sites) start =
            (.ok findings, start.keep specPath (some forest)) ∧
          (unmentionedFinding path specPath file site ∈ findings ↔
            isMentioned forest path site = false)) ∧
      (∀ fault, Finding.filePath workspace.project path = .error fault →
        isMentioned forest path site = false →
        outcome (findMissingSpecs workspace settings path sites) start =
          (.error (.path fault), start.keep specPath (some forest))) := by
  rcases eq_ofCounts_of_outcome_auditMethod audited rfl with
    ⟨covered, kept, specPath, forest, conventional, present, -, read, -,
      verdict⟩
  have uncounted : forest.countContexts site.name = 0 :=
    (Verdict.ofCounts_eq_unspecced verdict.symm).2
  have usable : ∀ site ∈ sites,
      ∃ excluded, settings.excludesMethod site.name = .ok excluded :=
    fun site _ => excludesMethod_of_eq_false kept site.name
  rw [← same specPath] at read
  have checked :
      outcome (findMissingSpecs workspace settings path sites) start = _ :=
    outcome_findMissingSpecs notSpec covered conventional present read
  refine ⟨specPath, forest, conventional, read,
    described_of_isMentioned uncounted, ?_, ?_⟩
  · intro file shown
    refine ⟨_, checked.trans (outcome_mapM_missingSpec usable shown), ?_⟩
    exact unmentionedFinding_mem_iff listed isPublic kept
  · intro fault hidden unmentioned
    rw [checked]
    exact outcome_mapM_missingSpec_of_error usable hidden
      ⟨site, listed, (isReported_iff isPublic kept).mpr unmentioned⟩

/-- A project whose one spec describes a method by an empty group. -/
def toggleProject : Project where
  disk :=
    .directory [("spec", .directory [("models", .directory
      [("toggle_spec.rb", .file "describe '#label' do\nend\n".toUTF8)])])]
  root := []

/-- The method, which has one conditional. -/
def toggleLabel : Site where
  name := "label"
  kind := .instanceMethod
  line := 2
  column := 2
  endLine := 7
  endColumn := 5
  visibility := .isPublic
  node :=
    .node { (default : Syntax.Label) with type := "method", named := true } [
      .node { (default : Syntax.Label) with type := "if", named := true } []]

/-- The method has no contexts, and no finding is made of it. -/
theorem outcome_findMissingSpecs_of_unspecced_toggle :
    let workspace : Workspace := ⟨toggleProject, .missing⟩
    let path := "app/models/toggle.rb"
    ∃ later findings after,
      outcome (auditMethod workspace .standard path toggleLabel)
          (.empty "indent") =
        (.ok (.unspecced 2), later) ∧
      outcome (findMissingSpecs workspace .standard path [toggleLabel]) later =
        (.ok findings, after) ∧
      unmentionedFinding path "spec/models/toggle_spec.rb" path toggleLabel ∉
        findings := by
  intro workspace path
  let group : Block := .block ⟨"describe '#label'", 0, 1, .group⟩ []
  have conventional :
      Path.specPath? path = some "spec/models/toggle_spec.rb" := by
    decide +kernel
  have text : toggleProject.text? "spec/models/toggle_spec.rb" =
      some "describe '#label' do\nend\n" := by
    decide +kernel
  have read : (SpecIndex.empty "indent").given workspace
      "spec/models/toggle_spec.rb" = .ok (some [group]) := by
    change SpecIndex.readForest workspace "indent"
      "spec/models/toggle_spec.rb" = .ok (some [group])
    rw [SpecIndex.readForest, text]
    rfl
  have branches : countBranches Settings.standard.ignoreMemoization
      toggleLabel.node = 2 := by
    decide +kernel
  have uncounted : Spec.Forest.countContexts [group] toggleLabel.name = 0 := by
    decide +kernel
  have audited := outcome_auditMethod (by decide +kernel) (by decide +kernel)
    conventional (by decide +kernel) (Nat.le_of_eq branches.symm) read
  rw [branches, uncounted] at audited
  rcases outcome_findMissingSpecs_of_unspecced (by decide +kernel)
      (List.mem_singleton_self toggleLabel) rfl audited
      (SpecIndex.given_keep read) with
    ⟨specPath, forest, conventional', read', -, found, -⟩
  rw [conventional] at conventional'
  cases conventional'
  rw [SpecIndex.given_keep read, read] at read'
  cases read'
  have shown : Finding.filePath toggleProject path = .ok path := by
    decide +kernel
  rcases found path shown with ⟨findings, checked, reported⟩
  refine ⟨_, findings, _, audited, checked, ?_⟩
  rw [reported]
  decide

end SpecAudit.Audit

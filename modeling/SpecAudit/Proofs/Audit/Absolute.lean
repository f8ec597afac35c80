import SpecAudit.Proofs.Audit.Existence
import SpecAudit.Proofs.Project.Absolute

/-!
# Audits of absolute and relative paths

A file of a project can be given by a relative path or by the same path below
that of the project.  The two name the same spec, under a relative and under
an absolute path, so an index keeps it under two names.  Steps on the one and
on the other run side by side: as long as the indexes give the same blocks
under the two names, the steps come to the same results and leave the indexes
that way.
-/

namespace SpecAudit.Audit

open SpecAudit.Config (Settings)
open SpecAudit.Method (Site)
open SpecAudit.Path (below specPath? IsPlainRoot IsRelative)
open SpecAudit.Project (pathOf IsName IsNormalPath)
open SpecAudit.Spec (Forest)

/-- A path below that of the project. -/
def Workspace.absolute (workspace : Workspace) (path : String) : String :=
  below (pathOf workspace.project.root) path

variable {workspace : Workspace} {path spec : String}
variable {index index' : SpecIndex}

/-! ## Indexes side by side -/

namespace SpecIndex

/-- Whether an index gives under absolute paths what another one gives under
relative paths. -/
def Agrees (workspace : Workspace) (index index' : SpecIndex) : Prop :=
  ∀ spec, IsRelative spec →
    index'.given workspace (workspace.absolute spec) =
      index.given workspace spec

theorem agrees_empty (named : ∀ name ∈ workspace.project.root, IsName name)
    (structureName : String) :
    Agrees workspace (empty structureName) (empty structureName) := by
  intro spec relative
  change readForest workspace structureName (workspace.absolute spec) =
    readForest workspace structureName spec
  rw [readForest, Workspace.absolute, Project.text?_below named relative]
  rfl

end SpecIndex

/-! ## Steps side by side -/

variable {α β γ δ : Type}

/--
Whether two steps, from indexes that agree, fail alike or give values that are
alike in a view, and leave indexes that agree.
-/
def Mirrors (workspace : Workspace) (view : α → γ) (step step' : Step α) :
    Prop :=
  ∀ index index' : SpecIndex, index.Agrees workspace index' →
    (outcome step' index').1.map view = (outcome step index).1.map view ∧
      (outcome step index).2.Agrees workspace (outcome step' index').2

namespace Mirrors

variable {view : α → γ} {view' : β → δ}

theorem lift {result result' : Except Fault α}
    (same : result'.map view = result.map view) :
    Mirrors workspace view (Audit.lift result) (Audit.lift result') :=
  fun _ _ agrees => ⟨same, agrees⟩

theorem pure {value value' : α} (same : view value' = view value) :
    Mirrors workspace view (Pure.pure value) (Pure.pure value') :=
  lift (congrArg Except.ok same)

theorem bind {step step' : Step α} {next next' : α → Step β}
    (first : Mirrors workspace view step step')
    (later : ∀ value value', view value' = view value →
      Mirrors workspace view' (next value) (next' value')) :
    Mirrors workspace view' (step >>= next) (step' >>= next') := by
  intro index index' agrees
  rcases first index index' agrees with ⟨same, middle⟩
  cases given : outcome step index with
  | mk result after =>
      cases given' : outcome step' index' with
      | mk result' after' =>
          rw [given, given'] at same middle
          -- Either both runs go on or both end, as the views tell them apart.
          cases result with
          | error fault =>
              cases result' with
              | error fault' =>
                  cases same
                  rw [outcome_bind_of_error given,
                    outcome_bind_of_error given']
                  exact ⟨rfl, middle⟩
              | ok value' => cases same
          | ok value =>
              cases result' with
              | error fault' => cases same
              | ok value' =>
                  rw [outcome_bind_of_ok given, outcome_bind_of_ok given']
                  injection same with same
                  exact later value value' same after after' middle

/-- Steps that give the same value go on with it. -/
theorem bind_same {step step' : Step α} {next next' : α → Step β}
    (first : Mirrors workspace id step step')
    (later : ∀ value, Mirrors workspace view' (next value) (next' value)) :
    Mirrors workspace view' (step >>= next) (step' >>= next') := by
  refine first.bind fun value value' same => ?_
  rw [show value' = value from same]
  exact later value

theorem mapM {step step' : β → Step α} :
    ∀ {list : List β},
      (∀ item ∈ list, Mirrors workspace view (step item) (step' item)) →
      Mirrors workspace (List.map view) (list.mapM step) (list.mapM step')
  | [], _ => pure rfl
  | first :: rest, each => by
      rw [List.mapM_cons, List.mapM_cons]
      refine (each first List.mem_cons_self).bind fun value value' same => ?_
      have others : Mirrors workspace (List.map view) (rest.mapM step)
          (rest.mapM step') :=
        mapM fun item member => each item (List.mem_cons_of_mem _ member)
      refine others.bind fun values values' sames => pure ?_
      rw [List.map_cons, List.map_cons, same, sames]

theorem mapM_same {step step' : β → Step α} {list : List β}
    (each : ∀ item ∈ list, Mirrors workspace id (step item) (step' item)) :
    Mirrors workspace id (list.mapM step) (list.mapM step') := by
  have whole := mapM each
  rwa [List.map_id_fun] at whole

theorem result_eq {step step' : Step α}
    (mirrors : Mirrors workspace id step step')
    (agrees : index.Agrees workspace index') :
    (outcome step' index').1 = (outcome step index).1 := by
  simpa using (mirrors index index' agrees).1

/-- A spec is asked for under its relative and its absolute path. -/
theorem forest (relative : IsRelative spec) :
    Mirrors workspace id (SpecIndex.forest workspace spec)
      (SpecIndex.forest workspace (workspace.absolute spec)) := by
  intro index index' agrees
  have same := agrees spec relative
  rw [SpecIndex.outcome_forest, SpecIndex.outcome_forest, same]
  cases found : index.given workspace spec with
  | error fault => exact ⟨rfl, agrees⟩
  | ok blocks =>
      refine ⟨rfl, fun other relativeOther => ?_⟩
      rw [found] at same
      dsimp only
      rw [SpecIndex.given_keep found, SpecIndex.given_keep same]
      exact agrees other relativeOther

end Mirrors

/-! ## The two checks -/

section Checks

variable (named : ∀ name ∈ workspace.project.root, IsName name)
variable (plain : IsPlainRoot (pathOf workspace.project.root))
variable (relative : IsRelative path)

include plain

theorem covers_absolute (settings : Settings) (path : String) :
    settings.covers (workspace.absolute path) = settings.covers path := by
  unfold Settings.covers
  induction settings.coveredDirectories with
  | nil => rfl
  | cons directory rest induction =>
      cases directory with
      | str directory =>
          rw [Settings.anyCovers, Settings.anyCovers, induction,
            Workspace.absolute, Path.isUnder_below plain]
      | _ => rfl

theorem isMentioned_absolute (forest : Forest) (path : String) (site : Site) :
    isMentioned forest (workspace.absolute path) site =
      isMentioned forest path site := by
  rw [isMentioned, Workspace.absolute, Path.isService_below plain]
  rfl

include named relative

theorem mirrors_auditMethod (settings : Settings) (site : Site) :
    Mirrors workspace id (auditMethod workspace settings path site)
      (auditMethod workspace settings (workspace.absolute path) site) := by
  unfold auditMethod
  rw [covers_absolute plain, Workspace.absolute, Path.specPath?_below plain]
  refine Mirrors.bind_same (.lift rfl) fun covered => ?_
  cases covered with
  | false => exact .pure rfl
  | true =>
      refine Mirrors.bind_same (.lift rfl) fun excluded => ?_
      cases excluded with
      | true => exact .pure rfl
      | false =>
          cases found : specPath? path with
          | none => exact .pure rfl
          | some spec =>
              have relativeSpec := relative.of_specPath? found
              simp only [Option.map_some, Bool.false_eq_true, if_false]
              rw [Project.hasFile_below named relativeSpec]
              refine Mirrors.bind_same (.lift rfl) fun present => ?_
              split
              · exact .pure rfl
              · split
                · exact .pure rfl
                · refine (Mirrors.forest relativeSpec).bind_same fun blocks => ?_
                  cases blocks <;> exact .pure rfl

theorem mirrors_auditFile (settings : Settings) (sites : List Site) :
    Mirrors workspace id (auditFile workspace settings path sites)
      (auditFile workspace settings (workspace.absolute path) sites) :=
  .mapM_same fun site _ =>
    (mirrors_auditMethod named plain relative settings site).bind_same
      fun _ => .pure rfl

end Checks

/-! ## Findings -/

/-- A finding without the spec path among its details. -/
def withoutSpecPath (finding : Finding) : Finding :=
  { finding with detail := finding.detail.filter (·.1 != "spec_path") }

section Findings

variable (named : ∀ name ∈ workspace.project.root, IsName name)
variable (plain : IsPlainRoot (pathOf workspace.project.root))
variable (relative : IsRelative path)
variable (shown : Finding.filePath workspace.project (workspace.absolute path) =
  Finding.filePath workspace.project path)

include shown

theorem map_finding_diagnostics (audited : List (Site × Verdict)) :
    (diagnostics (workspace.absolute path) audited).map
        (·.finding workspace.project) =
      (diagnostics path audited).map (·.finding workspace.project) := by
  rw [diagnostics, diagnostics, List.map_filterMap, List.map_filterMap]
  congr 1
  funext item
  rcases item with ⟨site, verdict⟩
  cases verdict with
  | insufficient branches contexts =>
      simp only [Verdict.diagnostic?, Option.map_some, Diagnostic.finding,
        Diagnostic.message, Finding.make, shown]
  | _ => rfl

include named plain relative

theorem mirrors_findInsufficientContexts (settings : Settings)
    (sites : List Site) :
    Mirrors workspace id
      (findInsufficientContexts workspace settings path sites)
      (findInsufficientContexts workspace settings (workspace.absolute path)
        sites) := by
  unfold findInsufficientContexts
  refine (mirrors_auditFile named plain relative settings sites).bind_same
    fun audited => ?_
  have findings (path : String) :
      ((diagnostics path audited).mapM fun diagnostic =>
          ofDisk (diagnostic.finding workspace.project)) =
        ((diagnostics path audited).map
          (·.finding workspace.project)).mapM ofDisk := by
    rw [List.mapM_map]
    rfl
  rw [findings, findings, map_finding_diagnostics shown]
  exact .mapM_same fun made _ => .lift rfl

omit named in
theorem mirrors_missingSpecFinding (found : specPath? path = some spec)
    (site : Site) :
    Mirrors workspace withoutSpecPath
      (missingSpecFinding workspace path spec site)
      (missingSpecFinding workspace (workspace.absolute path)
        (workspace.absolute spec) site) := by
  intro index index' agrees
  rw [outcome_missingSpecFinding, outcome_missingSpecFinding, shown]
  refine ⟨?_, agrees⟩
  cases Finding.filePath workspace.project path with
  | error fault => simp only [Except.map, Except.mapError]
  | ok file =>
      have seen : Path.relativeSpecPath (workspace.absolute spec)
          (workspace.absolute path) = Path.relativeSpecPath spec path :=
        Path.relativeSpecPath_below plain relative found
      change Except.ok (withoutSpecPath (unmentionedFinding _ _ _ _)) =
        Except.ok (withoutSpecPath (unmentionedFinding _ _ _ _))
      simp [unmentionedFinding, withoutSpecPath, seen]

omit named in
theorem mirrors_missingSpec (found : specPath? path = some spec)
    (settings : Settings) (forest : Forest) (site : Site) :
    Mirrors workspace (Option.map withoutSpecPath)
      (missingSpec? workspace settings path spec forest site)
      (missingSpec? workspace settings (workspace.absolute path)
        (workspace.absolute spec) forest site) := by
  unfold missingSpec?
  rw [isMentioned_absolute plain]
  split
  · exact .pure rfl
  · refine Mirrors.bind_same (.lift rfl) fun excluded => ?_
    cases excluded with
    | true => exact .pure rfl
    | false =>
        simp only [Bool.false_eq_true, if_false]
        split
        · exact .pure rfl
        · refine (mirrors_missingSpecFinding plain relative shown found
            site).bind fun finding finding' same => .pure ?_
          rw [Option.map_some, Option.map_some, same]

theorem mirrors_findMissingSpecs (settings : Settings) (sites : List Site) :
    Mirrors workspace (List.map withoutSpecPath)
      (findMissingSpecs workspace settings path sites)
      (findMissingSpecs workspace settings (workspace.absolute path)
        sites) := by
  have toCheck : isToBeChecked settings (workspace.absolute path) =
      isToBeChecked settings path := by
    rw [isToBeChecked, covers_absolute plain, Workspace.absolute,
      Path.isSpecFile_below plain]
    rfl
  unfold findMissingSpecs
  rw [toCheck, Workspace.absolute, Path.specPath?_below plain]
  refine Mirrors.bind_same ?_ fun checked => ?_
  · unfold isToBeChecked
    split
    · exact .pure rfl
    · exact .lift rfl
  cases checked with
  | false => exact .pure rfl
  | true =>
      cases found : specPath? path with
      | none => exact .pure rfl
      | some spec =>
          have relativeSpec := relative.of_specPath? found
          simp only [Option.map_some, Bool.not_true, Bool.false_eq_true,
            if_false]
          rw [Project.hasFile_below named relativeSpec]
          refine Mirrors.bind_same (.lift rfl) fun present => ?_
          split
          · exact .pure rfl
          · refine (Mirrors.forest relativeSpec).bind_same fun blocks => ?_
            cases blocks with
            | none => exact .pure rfl
            | some forest =>
                refine (Mirrors.mapM fun site _ => mirrors_missingSpec plain
                  relative shown found settings forest site).bind
                    fun findings findings' same => .pure ?_
                have kept (findings : List (Option Finding)) :
                    (findings.filterMap id).map withoutSpecPath =
                      (findings.map (Option.map withoutSpecPath)).filterMap
                        id := by
                  rw [List.map_filterMap, List.filterMap_map]
                  rfl
                rw [kept, kept, same]

end Findings

/--
A relative path and the same path below a root without `app` and `spec` read
alike.  Below the path of the project a file is audited alike, too, from an
index that has taken in nothing: every method is given the same verdict.  If
the path is in normal form and no link is on it, the findings are the same,
too, but for the spec path among the details.
-/
theorem audit_absolute {root : String} (plain : IsPlainRoot root)
    (relative : IsRelative path) (covered : List String) :
    Path.ReadsAlike root path covered ∧
    ∀ (workspace : Workspace) (settings : Settings) (structureName : String)
      (sites : List Site),
      root = pathOf workspace.project.root →
      (∀ name ∈ workspace.project.root, IsName name) →
      let fresh := SpecIndex.empty structureName
      (outcome (auditFile workspace settings (below root path) sites) fresh).1 =
        (outcome (auditFile workspace settings path sites) fresh).1 ∧
      (IsNormalPath path →
        workspace.project.disk.IsLinkFree (workspace.project.names path) →
        (outcome (findInsufficientContexts workspace settings
            (below root path) sites) fresh).1 =
          (outcome (findInsufficientContexts workspace settings path sites)
            fresh).1 ∧
        (outcome (findMissingSpecs workspace settings (below root path) sites)
            fresh).1.map (List.map withoutSpecPath) =
          (outcome (findMissingSpecs workspace settings path sites)
            fresh).1.map (List.map withoutSpecPath)) := by
  refine ⟨plain.readsAlike relative covered, ?_⟩
  rintro workspace settings structureName sites rfl named fresh
  have agrees : fresh.Agrees workspace fresh :=
    SpecIndex.agrees_empty named structureName
  have audited := mirrors_auditFile named plain relative settings sites
  refine ⟨audited.result_eq agrees, ?_⟩
  intro spelled free
  have shown := Project.filePath_below named relative spelled free
  have insufficient := mirrors_findInsufficientContexts named plain relative
    shown settings sites
  have missing := mirrors_findMissingSpecs named plain relative shown settings
    sites
  constructor
  · exact insufficient.result_eq agrees
  · exact (missing fresh fresh agrees).1

/-- A project below the top, whose one spec has one context for a method. -/
def shopProject : Project where
  disk :=
    .directory [("shop", .directory [("spec", .directory [("models", .directory
      [("toggle_spec.rb", .file
        "describe '#label' do\n  context 'on' do\n  end\nend\n".toUTF8)])])])]
  root := ["shop"]

/-- The file of the method, whose spec is there, is audited alike. -/
theorem audit_absolute_shop :
    let workspace : Workspace := ⟨shopProject, .missing⟩
    let found (path : String) := (outcome (findInsufficientContexts workspace
      .standard path [toggleLabel]) (.empty "indent")).1
    specPath? "/shop/app/models/toggle.rb" =
        (specPath? "app/models/toggle.rb").map (below "/shop") ∧
      shopProject.hasFile "/shop/spec/models/toggle_spec.rb" = .ok true ∧
      found "/shop/app/models/toggle.rb" = found "app/models/toggle.rb" := by
  intro workspace found
  have plain : IsPlainRoot "/shop" := by decide
  have relative : IsRelative "app/models/toggle.rb" := by decide
  have named : ∀ name ∈ shopProject.root, IsName name := by decide
  have spelled : IsNormalPath "app/models/toggle.rb" := by decide
  have free : shopProject.disk.IsLinkFree
      (shopProject.names "app/models/toggle.rb") := by
    have names : shopProject.names "app/models/toggle.rb" =
        ["shop", "app", "models", "toggle.rb"] := by
      decide
    rw [names]
    simp [Project.Entry.IsLinkFree, Project.Entry.at?, shopProject,
      List.lookup_cons]
  rcases audit_absolute plain relative [] with ⟨alike, audits⟩
  have audited := audits workspace .standard "indent" [toggleLabel] rfl named
  exact ⟨alike.spec, by decide, (audited.2 spelled free).1⟩

end SpecAudit.Audit

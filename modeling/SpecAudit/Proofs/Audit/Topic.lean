import Mathlib.Data.List.ProdSigma
import SpecAudit.Audit.Scan
import SpecAudit.Proofs.Attempt
import SpecAudit.Proofs.Audit.Runs

/-!
# What findings are about

A finding is about a name on a line, and a check makes at most one of each
method or call that it looks at, in their order.  So the findings in a file are
about some of the names and lines that its text holds, each at most once for a
check.  This is said of every run that succeeds, whatever the settings are.
-/

namespace SpecAudit

namespace Finding

/-- What a finding is about: the check, the name and the line. -/
def topic (finding : Finding) : String × String × Int :=
  (finding.detector, finding.name, finding.line)

/-- Whether the identifier of a finding is the one that is made of its parts. -/
def IsIdentified (finding : Finding) : Prop :=
  finding.id = identifier finding.detector finding.file finding.name finding.line

theorem of_make {project : Project} {detector file name : String}
    {line column : Int} {summary : String} {severity : Severity}
    {detail : Fields} {finding : Finding}
    (made : make project detector file name line column summary severity
      detail = .ok finding) :
    finding.topic = (detector, name, line) ∧ finding.IsIdentified := by
  rcases exists_of_bind_eq_ok made with ⟨path, -, made⟩
  cases made
  exact ⟨rfl, rfl⟩

end Finding

namespace Audit

open SpecAudit.Config (Settings)
open SpecAudit.Method (Site)

/-- Whether findings are about some of the given topics, in their order. -/
structure AreAbout (topics : List (String × String × Int))
    (findings : List Finding) : Prop where
  topics : (findings.map Finding.topic).Sublist topics
  identified : ∀ finding ∈ findings, finding.IsIdentified

namespace AreAbout

variable {topics topics' : List (String × String × Int)}
variable {findings findings' : List Finding}

theorem nil : AreAbout topics [] :=
  ⟨List.nil_sublist _, by simp⟩

theorem mono (about : AreAbout topics findings)
    (fewer : topics.Sublist topics') : AreAbout topics' findings :=
  ⟨about.topics.trans fewer, about.identified⟩

theorem append (about : AreAbout topics findings)
    (about' : AreAbout topics' findings') :
    AreAbout (topics ++ topics') (findings ++ findings') where
  topics := by
    rw [List.map_append]
    exact about.topics.append about'.topics
  identified :=
    List.forall_mem_append.mpr ⟨about.identified, about'.identified⟩

/-- Items of which at most one finding is made each, about their topic. -/
theorem filterMap {α β : Type} {topicOf : α → String × String × Int}
    {made : β → Option Finding} {items : List α} {values : List β}
    (each : List.Forall₂ (fun item value => ∀ finding ∈ made value,
      finding.topic = topicOf item ∧ finding.IsIdentified) items values) :
    AreAbout (items.map topicOf) (values.filterMap made) := by
  induction each with
  | nil => exact nil
  | @cons item value items values first later induction =>
      rw [List.filterMap_cons]
      cases found : made value with
      | none => exact induction.mono (List.sublist_cons_self _ _)
      | some finding =>
          rcases first finding found with ⟨topic, identified⟩
          refine ⟨?_, List.forall_mem_cons.mpr
            ⟨identified, induction.identified⟩⟩
          rw [List.map_cons, List.map_cons, topic]
          exact induction.topics.cons_cons _

/-- Items of which one finding is made each, about their topic. -/
theorem of_forall₂ {α : Type} {topicOf : α → String × String × Int}
    {items : List α}
    (each : List.Forall₂ (fun item finding =>
      finding.topic = topicOf item ∧ finding.IsIdentified) items findings) :
    AreAbout (items.map topicOf) findings := by
  have about : AreAbout (items.map topicOf) (findings.filterMap some) :=
    .filterMap (each.imp fun _ _ fact _ same => by cases same; exact fact)
  rw [List.filterMap_some] at about
  exact about

end AreAbout

/-! ## What steps ensure -/

section Ensures

variable {α β : Type}

/-- Whether something holds of whatever value a step gives. -/
def Ensures (step : Step α) (holds : α → Prop) : Prop :=
  ∀ index value, (outcome step index).1 = .ok value → holds value

namespace Ensures

variable {holds : α → Prop} {holds' : β → Prop}

theorem pure {value : α} (fact : holds value) :
    Ensures (Pure.pure value : Step α) holds := by
  rintro index _ ⟨⟩
  exact fact

theorem lift {result : Except Fault α}
    (fact : ∀ value, result = .ok value → holds value) :
    Ensures (Audit.lift result) holds :=
  fun _ value given => fact value given

theorem ofDisk {result : Except Project.DiskFault α}
    (fact : ∀ value, result = .ok value → holds value) :
    Ensures (Audit.ofDisk result) holds :=
  lift fun value given => fact value (eq_ok_of_mapError_eq_ok given)

theorem any (step : Step α) : Ensures step fun _ => True :=
  fun _ _ _ => trivial

theorem bind {step : Step α} {next : α → Step β} (first : Ensures step holds)
    (later : ∀ value, holds value → Ensures (next value) holds') :
    Ensures (step >>= next) holds' := by
  intro index value given
  rcases outcome_bind_eq_ok (Prod.ext given rfl) with
    ⟨between, middle, before, after⟩
  exact later between (first index between (by rw [before])) middle value
    (by rw [after])

theorem ite {condition : Prop} [Decidable condition] {step other : Step α}
    (here : Ensures step holds) (otherwise : Ensures other holds) :
    Ensures (if condition then step else other) holds := by
  split
  · exact here
  · exact otherwise

/-- A step that is left out unless it is enabled gives nothing then. -/
theorem bind_if {enabled : Bool} {step : Step (List α)}
    {next : List α → Step β} {holds : List α → Prop}
    (first : Ensures step holds) (nothing : holds [])
    (later : ∀ values, holds values → Ensures (next values) holds') :
    Ensures (if enabled then step >>= next else Pure.pure [] >>= next)
      holds' :=
  ite (first.bind later) ((pure nothing).bind later)

/-- Steps for the items of a list ensure something of each item and its value. -/
theorem mapM {step : α → Step β} {relates : α → β → Prop} {list : List α}
    (each : ∀ item ∈ list, Ensures (step item) (relates item)) :
    Ensures (list.mapM step) (List.Forall₂ relates list) := by
  induction list with
  | nil => exact pure .nil
  | cons first rest induction =>
      rcases List.forall_mem_cons.mp each with ⟨here, each⟩
      rw [List.mapM_cons]
      exact here.bind fun value fact =>
        (induction each).bind fun values facts => pure (.cons fact facts)

end Ensures

end Ensures

/-! ## Checks -/

section Checks

variable {workspace : Workspace} {settings : Settings}
variable {path specPath : String} {sites : List Site}

/-- What a check may say of a method. -/
def siteTopic (cop : Cop) (site : Site) : String × String × Int :=
  (cop.name, site.name, site.line)

theorem topics_diagnostics {audited : List (Site × Verdict)}
    (pairs : List.Forall₂ (fun site pair => pair.1 = site) sites audited) :
    ((diagnostics path audited).map fun diagnostic =>
      (Cop.sufficientContexts.name, diagnostic.method, diagnostic.line)).Sublist
      (sites.map (siteTopic .sufficientContexts)) := by
  unfold diagnostics
  induction pairs with
  | nil => exact .slnil
  | @cons site pair sites audited same later induction =>
      rcases pair with ⟨site, verdict⟩
      subst same
      cases verdict with
      | insufficient branches contexts => exact induction.cons_cons _
      | _ => exact induction.cons _

theorem ensures_findInsufficientContexts :
    Ensures (findInsufficientContexts workspace settings path sites)
      (AreAbout (sites.map (siteTopic .sufficientContexts))) := by
  have audit : Ensures (auditFile workspace settings path sites)
      (List.Forall₂ (fun site pair => pair.1 = site) sites) :=
    .mapM fun site _ => (Ensures.any _).bind fun _ _ => .pure rfl
  refine audit.bind fun audited pairs => ?_
  have report : Ensures
      ((diagnostics path audited).mapM fun diagnostic =>
        ofDisk (diagnostic.finding workspace.project))
      (List.Forall₂ (fun diagnostic finding => finding.topic =
          (Cop.sufficientContexts.name, diagnostic.method, diagnostic.line) ∧
          finding.IsIdentified) (diagnostics path audited)) :=
    .mapM fun diagnostic _ => .ofDisk fun _ made => Finding.of_make made
  intro index findings given
  have about := AreAbout.of_forall₂ (report index findings given)
  exact about.mono (topics_diagnostics pairs)

theorem ensures_missingSpec (forest : Spec.Forest) (site : Site) :
    Ensures (missingSpec? workspace settings path specPath forest site)
      fun finding? => ∀ finding ∈ finding?,
        finding.topic = siteTopic .publicMethodHasSpec site ∧
          finding.IsIdentified := by
  unfold missingSpec?
  refine .ite (.pure (by simp)) ((Ensures.any _).bind fun excluded _ => ?_)
  refine .ite (.pure (by simp)) (.ite (.pure (by simp)) ?_)
  have found : Ensures (missingSpecFinding workspace path specPath site)
      fun finding => finding.topic = siteTopic .publicMethodHasSpec site ∧
        finding.IsIdentified :=
    .ofDisk fun _ made => Finding.of_make made
  exact found.bind fun finding fact => .pure (by simpa using fact)

theorem ensures_findMissingSpecs :
    Ensures (findMissingSpecs workspace settings path sites)
      (AreAbout (sites.map (siteTopic .publicMethodHasSpec))) := by
  unfold findMissingSpecs
  refine (Ensures.any _).bind fun checked _ => .ite (.pure .nil) ?_
  cases Path.specPath? path with
  | none => exact .pure .nil
  | some specPath =>
      refine (Ensures.any _).bind fun present _ => .ite (.pure .nil) ?_
      refine (Ensures.any _).bind fun forest? _ => ?_
      cases forest? with
      | none => exact .pure .nil
      | some forest =>
          exact (Ensures.mapM fun site _ => ensures_missingSpec forest site).bind
            fun values facts => .pure (.filterMap facts)

theorem areAbout_findLetBangs {project : Project} {grammar : Grammar}
    {text : String} {findings : List Finding}
    (found : findLetBangs project grammar path text = .ok findings) :
    AreAbout ((letBangCalls grammar text).map fun call =>
      (Cop.noLetBang.name, letBang, (call.1 : Int))) findings := by
  unfold findLetBangs at found
  exact .of_forall₂ ((forall₂_of_mapM_eq_ok found).imp
    fun _ _ made => Finding.of_make made)

end Checks

/-! ## Files -/

section Files

variable {workspace : Workspace} {settings : Settings} {path text : String}

/-- The checks that are run on a file. -/
def checksOf (path : String) : List Cop :=
  if Path.isSpecFile path then [.noLetBang]
  else [.sufficientContexts, .publicMethodHasSpec]

/-- The names and lines that a check looks at in a text: of the eager calls in
a spec, and of the methods in a source. -/
def namedLines (grammar : Grammar) (path text : String) :
    List (String × Nat) :=
  if Path.isSpecFile path then
    (letBangCalls grammar text).map fun call => (letBang, call.1)
  else
    match methodsOf grammar text with
    | .ok sites => sites.map fun site => (site.name, site.line)
    | .error _ => []

/-- What a check may say of a name on a line. -/
def topicOf (check : Cop × String × Nat) : String × String × Int :=
  (check.1.name, check.2.1, check.2.2)

/-- What can be found in a text. -/
def topics (grammar : Grammar) (path text : String) :
    List (String × String × Int) :=
  ((checksOf path).product (namedLines grammar path text)).map topicOf

theorem ensures_scanText :
    Ensures (scanText workspace settings path text)
      (AreAbout (topics workspace.grammar path text)) := by
  unfold scanText topics checksOf namedLines
  split
  · refine .ite (.ofDisk fun findings found => ?_) (.pure .nil)
    simpa [List.product, topicOf, Function.comp_def] using
      areAbout_findLetBangs found
  · refine (Ensures.any _).bind fun covered _ => .ite (.pure .nil) ?_
    have parse : Ensures
        (lift ((methodsOf workspace.grammar text).mapError .grammar))
        fun sites => methodsOf workspace.grammar text = .ok sites :=
      .lift fun sites given => eq_ok_of_mapError_eq_ok given
    refine parse.bind fun sites parsed => ?_
    refine ensures_findInsufficientContexts.bind_if .nil
      fun insufficient few => ?_
    refine ensures_findMissingSpecs.bind_if .nil fun missing none => ?_
    have about := few.append none
    unfold siteTopic at about
    rw [parsed]
    refine .pure ?_
    simpa [List.product, topicOf, Function.comp_def] using about

/-- What can be found in a file, nothing if it cannot be read. -/
def namedLinesIn (workspace : Workspace) (path : String) :
    List (String × Nat) :=
  match workspace.project.resolvePath path with
  | .error _ => []
  | .ok place =>
    match workspace.project.text? (Project.pathOf place) with
    | none => []
    | some text => namedLines workspace.grammar path text

theorem ensures_scanFile :
    Ensures (scanFile workspace settings path)
      (AreAbout (((checksOf path).product (namedLinesIn workspace path)).map
        topicOf)) := by
  unfold scanFile namedLinesIn
  have place : Ensures (ofDisk (workspace.project.resolvePath path))
      fun place => workspace.project.resolvePath path = .ok place :=
    .ofDisk fun _ found => found
  refine place.bind fun place found => ?_
  rw [found]
  dsimp only
  cases workspace.project.text? (Project.pathOf place) with
  | none => exact .pure .nil
  | some text => exact ensures_scanText

end Files

end Audit

end SpecAudit

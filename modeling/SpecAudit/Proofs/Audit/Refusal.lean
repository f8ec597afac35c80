import SpecAudit.Proofs.Audit.Runs

/-!
# Specs that cannot be looked up

A check looks the spec of a source up before it reads it.  Where that fails, the
check of contexts goes on as long as methods are left out, and ends at the first
of the others; the check of existence ends at once.
-/

namespace SpecAudit.Audit

open SpecAudit.Config (Settings)
open SpecAudit.Method (Site)
open SpecAudit.Project (DiskFault)

/-- Whether a fault keeps the spec of a source from being looked up. -/
def IsBarred (workspace : Workspace) (path : String) (fault : DiskFault) :
    Prop :=
  ∃ specPath, Path.specPath? path = some specPath ∧
    workspace.project.hasFile specPath = .error fault

/-- Whether a fault ends the check of contexts: the spec of a covered file
cannot be looked up, and it is needed for a method that is not left out. -/
structure IsRefused (workspace : Workspace) (settings : Settings)
    (path : String) (sites : List Site) (fault : DiskFault) : Prop where
  covered : settings.covers path = .ok true
  barred : IsBarred workspace path fault
  needed : ∃ site ∈ sites, settings.excludesMethod site.name = .ok false

variable {workspace : Workspace} {settings : Settings} {path : String}
variable {sites sites' : List Site} {fault : DiskFault}

theorem IsBarred.unique {fault' : DiskFault}
    (one : IsBarred workspace path fault)
    (other : IsBarred workspace path fault') : fault = fault' := by
  rcases one with ⟨specPath, conventional, failed⟩
  rcases other with ⟨specPath', conventional', failed'⟩
  cases conventional.symm.trans conventional'
  cases failed.symm.trans failed'
  rfl

theorem exists_hasFile_of_not_isBarred
    (free : ∀ fault, ¬ IsBarred workspace path fault) {specPath : String}
    (conventional : Path.specPath? path = some specPath) :
    ∃ present, workspace.project.hasFile specPath = .ok present := by
  cases looked : workspace.project.hasFile specPath with
  | error fault => exact absurd ⟨specPath, conventional, looked⟩ (free fault)
  | ok present => exact ⟨present, rfl⟩

theorem IsRefused.of_subset
    (refused : IsRefused workspace settings path sites fault)
    (among : sites ⊆ sites') :
    IsRefused workspace settings path sites' fault := by
  rcases refused with ⟨covered, barred, site, member, kept⟩
  exact ⟨covered, barred, site, among member, kept⟩

section Barred

variable (covered : settings.covers path = .ok true)
variable (barred : IsBarred workspace path fault)
variable (index : SpecIndex)

include covered barred

/-- Where the spec cannot be looked up, only a method that is left out is
judged. -/
theorem outcome_auditMethod_of_isBarred {site : Site} {excluded : Bool}
    (excludes : settings.excludesMethod site.name = .ok excluded) :
    outcome (auditMethod workspace settings path site) index =
      (if excluded then .ok .excluded else .error (.path fault), index) := by
  rcases barred with ⟨specPath, conventional, failed⟩
  unfold auditMethod
  rw [covered, excludes, conventional]
  cases excluded with
  | true => rfl
  | false =>
      dsimp only
      rw [failed]
      rfl

theorem outcome_auditFile_of_excluded
    (excludes : ∀ site ∈ sites, settings.excludesMethod site.name = .ok true) :
    outcome (auditFile workspace settings path sites) index =
      (.ok (sites.map fun site => (site, .excluded)), index) :=
  outcome_mapM fun site member => outcome_bind_of_ok
    (outcome_auditMethod_of_isBarred covered barred index (excludes site member))

theorem outcome_findInsufficientContexts_of_excluded
    (excludes : ∀ site ∈ sites, settings.excludesMethod site.name = .ok true) :
    outcome (findInsufficientContexts workspace settings path sites) index =
      (.ok [], index) := by
  have nothing : diagnostics path (sites.map fun site => (site, .excluded)) =
      [] := by
    simp [diagnostics, Verdict.diagnostic?]
  unfold findInsufficientContexts
  rw [outcome_bind_of_ok
    (outcome_auditFile_of_excluded covered barred index excludes), nothing]
  rfl

/-- The check of existence ends with the fault, whatever the methods. -/
theorem outcome_findMissingSpecs_of_isBarred
    (notSpec : Path.isSpecFile path = false) :
    outcome (findMissingSpecs workspace settings path sites) index =
      (.error (.path fault), index) := by
  have checked : outcome (isToBeChecked settings path) index =
      (.ok true, index) := by
    rw [isToBeChecked, notSpec, covered]
    rfl
  rcases barred with ⟨specPath, conventional, failed⟩
  unfold findMissingSpecs
  rw [outcome_bind_of_ok checked, conventional]
  simp only [Bool.not_true, Bool.false_eq_true, if_false, failed]
  exact outcome_bind_of_error (outcome_ofDisk_error fault index)

end Barred

section Refused

variable (usable : ∀ site ∈ sites,
  ∃ excluded, settings.excludesMethod site.name = .ok excluded)
variable (refused : IsRefused workspace settings path sites fault)
variable (index : SpecIndex)

include usable refused

/-- Where the spec cannot be looked up and is needed, the file is not judged. -/
theorem outcome_auditFile_of_isRefused :
    outcome (auditFile workspace settings path sites) index =
      (.error (.path fault), index) := by
  have judged {site : Site} {excluded : Bool}
      (excludes : settings.excludesMethod site.name = .ok excluded) :=
    outcome_auditMethod_of_isBarred refused.covered refused.barred index
      excludes
  apply outcome_mapM_of_error
  · intro site member
    rcases usable site member with ⟨excluded, excludes⟩
    cases excluded with
    | true => exact .inl ⟨_, outcome_bind_of_ok (judged excludes)⟩
    | false => exact .inr (outcome_bind_of_error (judged excludes))
  · rcases refused.needed with ⟨site, member, kept⟩
    exact ⟨site, member, outcome_bind_of_error (judged kept)⟩

theorem outcome_findInsufficientContexts_of_isRefused :
    outcome (findInsufficientContexts workspace settings path sites) index =
      (.error (.path fault), index) :=
  outcome_bind_of_error (outcome_auditFile_of_isRefused usable refused index)

end Refused

end SpecAudit.Audit

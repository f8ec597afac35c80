import SpecAudit.Proofs.Audit.Runs

/-!
# Verdicts and what they rest on

A verdict for which contexts were counted rests on a spec document: it is the
verdict on the branches of the method and on its contexts in the blocks that
the index gives for that document.
-/

namespace SpecAudit.Audit

open SpecAudit.Config (Settings)
open SpecAudit.Method (Site countBranches)
open SpecAudit.Spec (Forest)

namespace Verdict

variable {branches contexts branches' contexts' : Nat}

theorem ofCounts_eq_unspecced
    (verdict : ofCounts branches contexts = unspecced branches') :
    branches' = branches ∧ contexts = 0 := by
  unfold ofCounts at verdict
  split at verdict
  · rename_i uncounted
    cases verdict
    exact ⟨rfl, uncounted⟩
  · split at verdict <;> cases verdict

theorem ofCounts_eq_insufficient
    (verdict : ofCounts branches contexts = insufficient branches' contexts') :
    branches' = branches ∧ contexts' = contexts ∧ 0 < contexts ∧
      contexts < branches := by
  unfold ofCounts at verdict
  split at verdict
  · cases verdict
  · split at verdict
    · cases verdict
    · cases verdict
      omega

theorem ofCounts_eq_covered
    (verdict : ofCounts branches contexts = covered branches' contexts') :
    branches' = branches ∧ contexts' = contexts ∧ branches ≤ contexts := by
  unfold ofCounts at verdict
  split at verdict
  · cases verdict
  · split at verdict
    · cases verdict
      exact ⟨rfl, rfl, ‹_›⟩
    · cases verdict

theorem ofCounts_of_le (some : contexts ≠ 0) (enough : branches ≤ contexts) :
    ofCounts branches contexts = covered branches contexts := by
  rw [ofCounts, if_neg some, if_pos enough]

end Verdict

variable {workspace : Workspace} {settings : Settings}
variable {path specPath : String} {forest : Forest}
variable {index later : SpecIndex} {site : Site}

/-- The verdict on a method with branches, where its spec is given. -/
theorem outcome_auditMethod
    (covered : settings.covers path = .ok true)
    (kept : settings.excludesMethod site.name = .ok false)
    (conventional : Path.specPath? path = some specPath)
    (present : workspace.project.hasFile specPath = .ok true)
    (branching : minBranches ≤
      countBranches settings.ignoreMemoization site.node)
    (read : index.given workspace specPath = .ok (some forest)) :
    outcome (auditMethod workspace settings path site) index =
      (.ok (.ofCounts (countBranches settings.ignoreMemoization site.node)
          (forest.countContexts site.name)),
        index.keep specPath (some forest)) := by
  unfold auditMethod
  rw [covered, outcome_bind_of_ok (outcome_ofSettings_ok true index), kept]
  simp only [Bool.not_true, Bool.false_eq_true, if_false]
  rw [outcome_bind_of_ok (outcome_ofSettings_ok false index), conventional]
  dsimp only
  rw [present]
  simp only [Bool.false_eq_true, if_false]
  rw [outcome_bind_of_ok (outcome_ofDisk_ok true index)]
  simp only [Bool.not_true, Bool.false_eq_true, if_false,
    Nat.not_lt.mpr branching]
  rw [outcome_bind_of_ok (SpecIndex.outcome_forest_of_ok read)]
  rfl

/-- Where contexts were counted, they were counted in the spec that is given. -/
theorem eq_ofCounts_of_outcome_auditMethod {verdict : Verdict} {contexts : Nat}
    (audited : outcome (auditMethod workspace settings path site) index =
      (.ok verdict, later))
    (counted : verdict.contexts? = some contexts) :
    settings.covers path = .ok true ∧
      settings.excludesMethod site.name = .ok false ∧
      ∃ specPath forest,
        Path.specPath? path = some specPath ∧
        workspace.project.hasFile specPath = .ok true ∧
        minBranches ≤ countBranches settings.ignoreMemoization site.node ∧
        index.given workspace specPath = .ok (some forest) ∧
        later = index.keep specPath (some forest) ∧
        verdict =
          .ofCounts (countBranches settings.ignoreMemoization site.node)
            (forest.countContexts site.name) := by
  unfold auditMethod at audited
  rcases outcome_bind_eq_ok audited with ⟨covered, _, asked, audited⟩
  rcases outcome_ofSettings_eq_ok asked with ⟨covers, rfl⟩
  cases covered with
  | false =>
      cases audited
      cases counted
  | true =>
      rcases outcome_bind_eq_ok audited with ⟨excluded, _, asked, audited⟩
      rcases outcome_ofSettings_eq_ok asked with ⟨excludes, rfl⟩
      cases excluded with
      | true =>
          cases audited
          cases counted
      | false =>
          refine ⟨covers, excludes, ?_⟩
          cases conventional : Path.specPath? path with
          | none =>
              rw [conventional] at audited
              cases audited
              cases counted
          | some specPath =>
              rw [conventional] at audited
              simp only [Bool.false_eq_true, if_false] at audited
              rcases outcome_bind_eq_ok audited with
                ⟨present, _, asked, audited⟩
              rcases outcome_ofDisk_eq_ok asked with ⟨looked, rfl⟩
              cases present with
              | false =>
                cases audited
                cases counted
              | true =>
                simp only [Bool.not_true, Bool.false_eq_true, if_false]
                  at audited
                split at audited
                · cases audited
                  cases counted
                · rename_i branching
                  rcases outcome_bind_eq_ok audited with
                    ⟨blocks, _, asked, audited⟩
                  rcases SpecIndex.outcome_forest_eq_ok asked with ⟨read, rfl⟩
                  cases blocks with
                  | none =>
                      cases audited
                      cases counted
                  | some forest =>
                      rw [outcome_pure, Prod.mk.injEq] at audited
                      rcases audited with ⟨judged, kept⟩
                      injection judged with judged
                      exact ⟨specPath, forest, rfl, looked,
                        Nat.not_lt.mp branching, read, kept.symm, judged.symm⟩

end SpecAudit.Audit

import SpecAudit.Proofs.Audit.Existence
import SpecAudit.Proofs.Spec.Insertion

/-!
# Methods that stay covered

Adding a block to a spec takes contexts from a method in one case only: the
block hides the scenario that was its single context.  A covered method has two
contexts or more, so it stays covered whatever block is added, and wherever.
-/

namespace SpecAudit.Audit

open SpecAudit.Config (Settings)
open SpecAudit.Method (Site countBranches)
open SpecAudit.Spec

section Covered

variable {workspace workspace' : Workspace} {settings : Settings}
variable {path specPath : String} {site : Site}
variable {index index' later : SpecIndex} {branches contexts : Nat}

/-- A covered method stays covered where its spec has no fewer contexts. -/
theorem outcome_auditMethod_of_covered {forest wider : Forest}
    (covered : outcome (auditMethod workspace settings path site) index =
      (.ok (.covered branches contexts), later))
    (conventional : Path.specPath? path = some specPath)
    (read : index.given workspace specPath = .ok (some forest))
    (present : workspace'.project.hasFile specPath = .ok true)
    (read' : index'.given workspace' specPath = .ok (some wider))
    (more : 2 ≤ forest.countContexts site.name →
      forest.countContexts site.name ≤ wider.countContexts site.name) :
    ∃ contexts', contexts ≤ contexts' ∧
      outcome (auditMethod workspace' settings path site) index' =
        (.ok (.covered branches contexts'),
          index'.keep specPath (some wider)) := by
  rcases eq_ofCounts_of_outcome_auditMethod covered rfl with
    ⟨covers, kept, specPath', forest', conventional', -, branching, given, -,
      verdict⟩
  cases conventional.symm.trans conventional'
  cases read.symm.trans given
  rcases Verdict.ofCounts_eq_covered verdict.symm with ⟨rfl, rfl, enough⟩
  have two : 2 ≤ forest.countContexts site.name :=
    Nat.le_trans branching enough
  have more := more two
  have judged : Verdict.ofCounts
        (countBranches settings.ignoreMemoization site.node)
        (wider.countContexts site.name) = .covered _ _ :=
    Verdict.ofCounts_of_le (by omega) (Nat.le_trans enough more)
  refine ⟨_, more, ?_⟩
  rw [← judged]
  exact outcome_auditMethod covers kept conventional present branching read'

end Covered

/--
A block that is added anywhere to a forest takes contexts from a method exactly
if it hides a scenario: then the single context is lost, and the groups found
are those of the block.  Whatever method is covered stays covered.
-/
theorem contexts_lost_iff_isHiddenBy (name : String) (block : Block)
    (place : Place) :
    ((place.fill [block]).countContexts name <
        (place.fill []).countContexts name ↔ place.IsHiddenBy name block) ∧
    (place.IsHiddenBy name block →
      (place.fill []).countContexts name = 1 ∧
        (place.fill [block]).countContexts name = 0 ∧
        (place.fill [block]).methodGroups none name =
          block.methodGroups none name) ∧
    ∀ (workspace workspace' : Workspace) (settings : Settings)
      (path specPath : String) (site : Site) (index index' later : SpecIndex)
      (branches contexts : Nat),
      site.name = name →
      outcome (auditMethod workspace settings path site) index =
        (.ok (.covered branches contexts), later) →
      Path.specPath? path = some specPath →
      index.given workspace specPath = .ok (some (place.fill [])) →
      workspace'.project.hasFile specPath = .ok true →
      index'.given workspace' specPath = .ok (some (place.fill [block])) →
      ∃ contexts', contexts ≤ contexts' ∧
        outcome (auditMethod workspace' settings path site) index' =
          (.ok (.covered branches contexts'),
            index'.keep specPath (some (place.fill [block]))) := by
  refine ⟨⟨?_, ?_⟩, ?_, ?_⟩
  · intro lost
    by_contra seen
    exact Nat.not_lt_of_le (Place.countContexts_fill_le seen) lost
  · intro hidden
    rw [hidden.countContexts.1, hidden.countContexts.2]
    exact Nat.one_pos
  · intro hidden
    exact ⟨hidden.countContexts.1, hidden.countContexts.2,
      Place.methodGroups_fill_singleton hidden.undescribed⟩
  · rintro workspace workspace' settings path specPath site index index' later
      branches contexts rfl covered conventional read present read'
    refine outcome_auditMethod_of_covered covered conventional read present
      read' fun two => Place.countContexts_fill_le fun hidden => ?_
    rw [hidden.countContexts.1] at two
    exact absurd two (by decide)

/-- An empty group hides the scenario that tests a method; added beside a group
that holds two groups it hides nothing, and the method stays covered. -/
theorem contexts_lost_iff_isHiddenBy_toggle :
    let hollow : Block := .block ⟨"describe '#label'", 0, 1, .group⟩ []
    let scenario : Block := .block ⟨"it 'tests label'", 0, 2, .scenario⟩ []
    let context : Block := .block ⟨"context 'on'", 2, 4, .group⟩ []
    let full : Block :=
      .block ⟨"describe '.label'", 0, 3, .group⟩ [context, context]
    let specPath := "spec/models/toggle_spec.rb"
    Forest.countContexts [hollow, scenario] "label" <
        Forest.countContexts [scenario] "label" ∧
      ∃ later contexts',
        outcome (auditMethod ⟨toggleProject, .missing⟩ .standard
            "app/models/toggle.rb" toggleLabel)
          ⟨"indent", [(specPath, some [full])]⟩ =
            (.ok (.covered 2 2), later) ∧
        2 ≤ contexts' ∧
        outcome (auditMethod ⟨toggleProject, .missing⟩ .standard
            "app/models/toggle.rb" toggleLabel)
          ⟨"indent", [(specPath, some [hollow, full])]⟩ =
            (.ok (.covered 2 contexts'),
              ⟨"indent", [(specPath, some [hollow, full])]⟩) := by
  intro hollow scenario context full specPath
  have own : hollow.methodGroups none "label" = [hollow] :=
    Block.methodGroups_of_describes (by decide)
  have hidden : (Place.top [] [scenario]).IsHiddenBy "label" hollow := by
    refine ⟨by rfl, by decide, ?_, ?_⟩
    · simp [own]
    · simp [own, hollow, Block.children]
  have branches : countBranches Settings.standard.ignoreMemoization
      toggleLabel.node = 2 := by
    decide +kernel
  have conventional :
      Path.specPath? "app/models/toggle.rb" = some specPath := by
    decide +kernel
  have present : toggleProject.hasFile specPath = .ok true := by
    decide +kernel
  have judged : Verdict.ofCounts
        (countBranches Settings.standard.ignoreMemoization toggleLabel.node)
        (Forest.countContexts [full] toggleLabel.name) = .covered 2 2 := by
    decide +kernel
  have covered : outcome (auditMethod ⟨toggleProject, .missing⟩ .standard
        "app/models/toggle.rb" toggleLabel)
      ⟨"indent", [(specPath, some [full])]⟩ =
        (.ok (.covered 2 2), ⟨"indent", [(specPath, some [full])]⟩) := by
    rw [← judged]
    exact outcome_auditMethod (by decide +kernel) (by decide +kernel)
      conventional present (Nat.le_of_eq branches.symm) rfl
  rcases contexts_lost_iff_isHiddenBy "label" hollow (.top [] [full]) with
    ⟨-, -, stays⟩
  rcases stays ⟨toggleProject, .missing⟩ ⟨toggleProject, .missing⟩ .standard
      "app/models/toggle.rb" specPath toggleLabel _
      ⟨"indent", [(specPath, some [hollow, full])]⟩ _ 2 2 rfl covered
      conventional rfl present rfl with ⟨contexts', more, still⟩
  exact ⟨(contexts_lost_iff_isHiddenBy "label" hollow
      (.top [] [scenario])).1.mpr hidden, _, contexts', covered, more, still⟩

end SpecAudit.Audit

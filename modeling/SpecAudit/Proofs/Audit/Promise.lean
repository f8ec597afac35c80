import SpecAudit.Proofs.Audit.Verdict
import SpecAudit.Proofs.Spec.ContextCount
import SpecAudit.Proofs.Spec.Place

/-!
# What a report of too few contexts promises

A report says how many more contexts would cover every branch of a method.
The promise is kept, wherever the contexts are added, if some group that
describes the method already holds a group.  Where those groups hold scenarios
alone, all of them counted as a single context, which the first added context
replaces: then one context is missing still, and it is reported again.
-/

namespace SpecAudit

namespace Spec

/-- The block with more blocks at its end. -/
def Block.widen (added : List Block) (block : Block) : Block :=
  .block block.heading (block.children ++ added)

@[simp]
theorem Block.describes_widen {kind : Option Method.MethodKind}
    {name : String} {added : List Block} {block : Block} :
    (block.widen added).describes kind name = block.describes kind name :=
  rfl

theorem Block.childGroups_widen {added : List Block}
    (areGroups : ∀ inner ∈ added, inner.isGroup = true) (block : Block) :
    (block.widen added).childGroups = block.childGroups ++ added := by
  simp only [childGroups, widen, children, List.filter_append,
    List.filter_eq_self.mpr areGroups]

/-- Groups added to a group that describes a method are all counted. -/
theorem heldGroups_methodGroups_widen {name : String} {place : Place}
    {group : Block} {added : List Block}
    (outside : place.IsOutside none name)
    (describes : group.describes none name = true)
    (areGroups : ∀ inner ∈ added, inner.isGroup = true) :
    heldGroups ((place.fill [group.widen added]).methodGroups none name) =
      heldGroups ((place.fill [group]).methodGroups none name) +
        added.length := by
  rcases Place.methodGroups_fill outside with ⟨before, after, found⟩
  rw [found, found, Block.methodGroupsOf_singleton_of_describes describes,
    Block.methodGroupsOf_singleton_of_describes
      (Block.describes_widen.trans describes)]
  simp only [heldGroups_append, heldGroups_cons,
    Block.childGroups_widen areGroups, List.length_append]
  omega

end Spec

namespace Audit

open SpecAudit.Spec

/--
Where the contexts that a report asks for are added to a group that describes
the method, the method is covered exactly if some such group held a group
before.  Otherwise it is reported again, with a single context missing.
-/
theorem Verdict.ofCounts_widen {forest : Forest} {name : String}
    {branches contexts : Nat} {group : Block} {added : List Block}
    (reported : ofCounts branches (forest.countContexts name) =
      insufficient branches contexts)
    (found : group ∈ forest.methodGroups none name)
    (areGroups : ∀ inner ∈ added, inner.isGroup = true)
    (asked : added.length = branches - contexts) :
    (∃ place : Place,
      place.IsOutside none name ∧ forest = place.fill [group]) ∧
    ∀ place : Place,
      place.IsOutside none name → forest = place.fill [group] →
      ofCounts branches
          ((place.fill [group.widen added]).countContexts name) =
        if holdsGroup (forest.methodGroups none name) then
          covered branches branches
        else insufficient branches (branches - 1) := by
  rcases Block.exists_place_of_mem_methodGroupsOf found with
    ⟨describes, somewhere⟩
  refine ⟨somewhere, ?_⟩
  intro place outside stands
  rcases ofCounts_eq_insufficient reported with ⟨-, counted, some', fewer⟩
  have before := Forest.countContexts_of_ne_nil (List.ne_nil_of_mem found)
  have total :
      heldGroups
          ((place.fill [group.widen added]).methodGroups none name) =
        heldGroups (forest.methodGroups none name) + added.length := by
    rw [stands]
    exact heldGroups_methodGroups_widen outside describes areGroups
  have described :
      (place.fill [group.widen added]).methodGroups none name ≠ [] := by
    intro empty
    rw [empty] at total
    have none' : heldGroups [] = 0 := rfl
    omega
  have after := Forest.countContexts_of_ne_nil described
  rw [total] at after
  -- The sum of the groups carries over; the single context of scenarios does not.
  cases holds : holdsGroup (forest.methodGroups none name) with
  | true =>
      have positive : heldGroups (forest.methodGroups none name) ≠ 0 := by
        rw [Ne, heldGroups_eq_zero_iff, holds]
        simp
      rw [if_neg (by omega)] at before after
      have reached : (place.fill [group.widen added]).countContexts name =
          branches := by
        omega
      rw [reached]
      simp [ofCounts, show branches ≠ 0 by omega]
  | false =>
      have zero : heldGroups (forest.methodGroups none name) = 0 :=
        heldGroups_eq_zero_iff.mpr holds
      have single : forest.countContexts name = 1 := by
        rw [zero] at before
        split at before <;> omega
      rw [if_neg (by omega)] at after
      have reached : (place.fill [group.widen added]).countContexts name =
          branches - 1 := by
        omega
      rw [reached]
      simp [ofCounts, show branches - 1 ≠ 0 by omega,
        show ¬ branches ≤ branches - 1 by omega]

/--
Two scenarios count as one context, so that two more are asked for; they count
as two, and one more is asked for.
-/
theorem Verdict.ofCounts_widen_scenarios :
    let scenario : Block := .block ⟨"it 'is on'", 2, 2, .scenario⟩ []
    let group : Block :=
      .block ⟨"describe '#label'", 0, 1, .group⟩ [scenario, scenario]
    let added : List Block :=
      [.block ⟨"context 'on'", 2, 4, .group⟩ [],
        .block ⟨"context 'off'", 2, 6, .group⟩ []]
    ofCounts 3 (Forest.countContexts [group] "label") = insufficient 3 1 ∧
      ofCounts 3 (Forest.countContexts [group.widen added] "label") =
        insufficient 3 2 := by
  intro scenario group added
  have reported : ofCounts 3 (Forest.countContexts [group] "label") =
      insufficient 3 1 := by
    decide
  have describes : group.describes none "label" = true := by
    decide
  have only : Forest.methodGroups [group] none "label" = [group] :=
    Block.methodGroupsOf_singleton_of_describes describes
  have found : group ∈ Forest.methodGroups [group] none "label" := by
    rw [only]
    exact List.mem_singleton_self group
  have areGroups : ∀ inner ∈ added, inner.isGroup = true := by
    simp [added, Block.isGroup, Block.heading]
  have repeated := (ofCounts_widen reported found areGroups rfl).2
    (.top [] []) (Place.isOutside_top [] []) rfl
  have scenariosOnly : holdsGroup [group] = false := rfl
  rw [only, scenariosOnly] at repeated
  exact ⟨reported, repeated⟩

end Audit

end SpecAudit

import Mathlib.Algebra.GroupWithZero.Nat
import SpecAudit.Proofs.Spec.MethodGroups

/-!
# Contexts and the groups that hold them

The contexts of a method that some group describes are the groups directly
inside such groups, or a single one where there are scenarios alone.  So a
method has no contexts either where no group describes it and no scenario tests
it, or where nothing stands in any of the groups that describe it.
-/

namespace SpecAudit.Spec

variable {forest : Forest} {name : String}

/-- How many groups stand directly inside some blocks. -/
def heldGroups (blocks : List Block) : Nat :=
  (blocks.map (·.childGroups.length)).sum

@[simp]
theorem heldGroups_cons (first : Block) (rest : List Block) :
    heldGroups (first :: rest) =
      first.childGroups.length + heldGroups rest := by
  simp [heldGroups]

@[simp]
theorem heldGroups_append (left right : List Block) :
    heldGroups (left ++ right) = heldGroups left + heldGroups right := by
  simp [heldGroups]

/-- Whether a group stands directly inside some block. -/
def holdsGroup (blocks : List Block) : Bool :=
  blocks.any (!·.childGroups.isEmpty)

theorem heldGroups_eq_zero_iff {blocks : List Block} :
    heldGroups blocks = 0 ↔ holdsGroup blocks = false := by
  induction blocks with
  | nil => simp [heldGroups, holdsGroup]
  | cons first rest induction =>
      simp only [holdsGroup, List.any_cons, Bool.or_eq_false_iff] at induction ⊢
      rw [heldGroups_cons, Nat.add_eq_zero_iff, induction]
      simp

/-- Whether a scenario stands directly inside some block. -/
def holdsScenario (blocks : List Block) : Bool :=
  blocks.any (!·.childScenarios.isEmpty)

theorem Block.children_eq_nil_iff {block : Block} :
    block.children = [] ↔
      block.childGroups = [] ∧ block.childScenarios = [] := by
  constructor
  · intro empty
    simp [childGroups, childScenarios, empty]
  · rintro ⟨noGroups, noScenarios⟩
    rw [childGroups, List.filter_eq_nil_iff] at noGroups
    rw [childScenarios, List.filter_eq_nil_iff] at noScenarios
    rw [List.eq_nil_iff_forall_not_mem]
    intro inner member
    exact noScenarios inner member (by simpa using noGroups inner member)

theorem children_eq_nil_of_holds_nothing {blocks : List Block}
    (noGroup : heldGroups blocks = 0)
    (noScenario : holdsScenario blocks = false) :
    ∀ block ∈ blocks, block.children = [] := by
  rw [heldGroups_eq_zero_iff, holdsGroup, List.any_eq_false] at noGroup
  rw [holdsScenario, List.any_eq_false] at noScenario
  intro block member
  rw [Block.children_eq_nil_iff]
  constructor
  · simpa using noGroup block member
  · simpa using noScenario block member

theorem holds_nothing_of_children_eq_nil {blocks : List Block}
    (empty : ∀ block ∈ blocks, block.children = []) :
    heldGroups blocks = 0 ∧ holdsScenario blocks = false := by
  simp only [Block.children_eq_nil_iff] at empty
  rw [heldGroups_eq_zero_iff, holdsGroup, holdsScenario]
  constructor
  · rw [List.any_eq_false]
    intro block member
    simp [(empty block member).1]
  · rw [List.any_eq_false]
    intro block member
    simp [(empty block member).2]

namespace Forest

theorem countContexts_of_eq_nil
    (undescribed : forest.methodGroups none name = []) :
    forest.countContexts name =
      if forest.hasVerbScenario name then 1 else 0 := by
  rw [countContexts, undescribed]
  rfl

theorem countContexts_of_ne_nil
    (described : forest.methodGroups none name ≠ []) :
    forest.countContexts name =
      if heldGroups (forest.methodGroups none name) = 0 ∧
          holdsScenario (forest.methodGroups none name) = true then 1
      else heldGroups (forest.methodGroups none name) := by
  have nonempty : (forest.methodGroups none name).isEmpty = false := by
    simpa using described
  rw [countContexts, nonempty]
  rfl

/-- Groups that hold nothing make no contexts. -/
theorem countContexts_of_children_eq_nil
    (described : forest.methodGroups none name ≠ [])
    (empty : ∀ group ∈ forest.methodGroups none name, group.children = []) :
    forest.countContexts name = 0 := by
  rcases holds_nothing_of_children_eq_nil empty with ⟨noGroup, noScenario⟩
  rw [countContexts_of_ne_nil described, noGroup, noScenario]
  rfl

/--
A method without contexts is neither described nor tested, or the groups that
describe it are empty.
-/
theorem cases_of_countContexts_eq_zero
    (uncounted : forest.countContexts name = 0) :
    (forest.methodGroups none name = [] ∧
        forest.hasVerbScenario name = false) ∨
      (forest.methodGroups none name ≠ [] ∧
        ∀ group ∈ forest.methodGroups none name, group.children = []) := by
  by_cases described : forest.methodGroups none name = []
  · left
    rw [countContexts_of_eq_nil described] at uncounted
    exact ⟨described, by simpa using uncounted⟩
  · right
    rw [countContexts_of_ne_nil described] at uncounted
    split at uncounted
    · cases uncounted
    · rename_i held
      have noScenario :
          holdsScenario (forest.methodGroups none name) = false := by
        simpa [uncounted] using held
      exact ⟨described, children_eq_nil_of_holds_nothing uncounted noScenario⟩

end Forest

end SpecAudit.Spec

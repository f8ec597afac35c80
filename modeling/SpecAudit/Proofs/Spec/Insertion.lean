import SpecAudit.Proofs.Spec.ContextCount
import SpecAudit.Proofs.Spec.Place

/-!
# Blocks that are added to a forest

Adding blocks at a place takes nothing away: every group that describes a
method still does, around the place with more inside it, and every scenario
that tests the method still stands.  So a method loses no context, with one
exception: where only a scenario tests the method, groups that describe it and
hold nothing hide the scenario.  Then the single context is lost.
-/

namespace SpecAudit.Spec

open SpecAudit.Method (MethodKind)

/-! ## Scenarios that test a method -/

/-- Whether a heading is that of a scenario that tests a method. -/
def Heading.tests (name : String) (heading : Heading) : Bool :=
  !(heading.kind == .group) &&
    (verbSpan? name (Block.block heading []).title).isSome

namespace Forest

variable {name : String}

theorem hasVerbScenario_append (left right : Forest) :
    Forest.hasVerbScenario (left ++ right) name =
      (left.hasVerbScenario name || right.hasVerbScenario name) := by
  rw [hasVerbScenario, allBlocks_append, List.any_append]
  rfl

theorem hasVerbScenario_cons (heading : Heading) (children rest : Forest) :
    Forest.hasVerbScenario (.block heading children :: rest) name =
      (heading.tests name || children.hasVerbScenario name ||
        rest.hasVerbScenario name) := by
  rw [hasVerbScenario, allBlocks, Block.allOf, Block.all, List.any_append,
    List.any_cons]
  rfl

end Forest

namespace Place

variable {kind : Option MethodKind} {name : String} {blocks : List Block}

/-- A scenario tests the method in the filled place or in what fills it. -/
theorem hasVerbScenario_fill (blocks : List Block) (place : Place) :
    (place.fill blocks).hasVerbScenario name =
      ((place.fill []).hasVerbScenario name ||
        Forest.hasVerbScenario blocks name) := by
  induction place with
  | top before after =>
      simp only [fill, Forest.hasVerbScenario_append, List.nil_append]
      ac_rfl
  | inside before heading inner after induction =>
      simp only [fill, Forest.hasVerbScenario_append,
        Forest.hasVerbScenario_cons, induction]
      ac_rfl

/-! ## Groups that describe a method -/

/-- Siblings of each sort stay where blocks are added, and may become more. -/
theorem countP_fill_le (sort : Heading → Bool) (blocks : List Block)
    (place : Place) :
    (place.fill []).countP (sort ·.heading) ≤
      (place.fill blocks).countP (sort ·.heading) := by
  cases place with
  | top before after =>
      simp only [fill, List.countP_append, List.countP_nil]
      omega
  | inside before heading inner after =>
      simp only [fill, List.countP_append, List.countP_cons, Block.heading,
        Nat.le_refl]

theorem childGroups_fill_le (heading : Heading) (blocks : List Block)
    (place : Place) :
    (Block.block heading (place.fill [])).childGroups.length ≤
      (Block.block heading (place.fill blocks)).childGroups.length := by
  simp only [Block.childGroups, Block.children, ← List.countP_eq_length_filter]
  exact countP_fill_le (·.kind == .group) blocks place

theorem childScenarios_fill_le (heading : Heading) (blocks : List Block)
    (place : Place) :
    (Block.block heading (place.fill [])).childScenarios.length ≤
      (Block.block heading (place.fill blocks)).childScenarios.length := by
  simp only [Block.childScenarios, Block.children,
    ← List.countP_eq_length_filter]
  exact countP_fill_le (!·.kind == .group) blocks place

/-- A place that is not outside every group that describes the method lies in
an outermost one. -/
theorem exists_outermost {place : Place}
    (within : ¬ place.IsOutside kind name) :
    ∃ (outer : Place) (heading : Heading) (inner : Place),
      outer.IsOutside kind name ∧
      heading.describes kind name = true ∧
      ∀ blocks, place.fill blocks =
        outer.fill [.block heading (inner.fill blocks)] := by
  induction place with
  | top before after => exact absurd (isOutside_top before after) within
  | inside before heading inner after induction =>
      by_cases describes : heading.describes kind name = true
      · exact ⟨.top before after, heading, inner, isOutside_top before after,
          describes, fun _ => rfl⟩
      · have deeper : ¬ inner.IsOutside kind name := by
          intro outside
          apply within
          intro other member
          rcases List.mem_cons.mp member with rfl | member
          · simpa using describes
          · exact outside other member
        rcases induction deeper with
          ⟨outer, group, inner', outside, described, filled⟩
        refine ⟨.inside before heading outer after, group, inner', ?_,
          described, ?_⟩
        · intro other member
          rcases List.mem_cons.mp member with rfl | member
          · simpa using describes
          · exact outside other member
        · intro blocks
          rw [fill, fill, filled]

/--
The groups found in the filled place are those found without what fills it,
with more groups between them or with more inside one of them.
-/
theorem methodGroups_fill_cases (kind : Option MethodKind) (name : String)
    (place : Place) :
    ∃ before after,
      (∀ blocks, (place.fill blocks).methodGroups kind name =
        before ++ (Block.methodGroupsOf kind name blocks ++ after)) ∨
      ∃ heading inner, ∀ blocks, (place.fill blocks).methodGroups kind name =
        before ++ (.block heading (Place.fill blocks inner) :: after) := by
  by_cases outside : place.IsOutside kind name
  · rcases methodGroups_fill outside with ⟨before, after, found⟩
    exact ⟨before, after, .inl found⟩
  · rcases exists_outermost outside with
      ⟨outer, heading, inner, outside, describes, filled⟩
    rcases methodGroups_fill outside with ⟨before, after, found⟩
    refine ⟨before, after, .inr ⟨heading, inner, ?_⟩⟩
    intro blocks
    have described : (Block.block heading (inner.fill blocks)).describes
        kind name = true := describes
    rw [filled, found,
      Block.methodGroupsOf_singleton_of_describes described]
    rfl

theorem methodGroups_fill_ne_nil (blocks : List Block) {place : Place}
    (described : (place.fill []).methodGroups kind name ≠ []) :
    (place.fill blocks).methodGroups kind name ≠ [] := by
  rcases methodGroups_fill_cases kind name place with
    ⟨before, after, found | ⟨heading, inner, found⟩⟩
  · rw [found] at described ⊢
    intro empty
    simp only [List.append_eq_nil_iff] at empty
    exact described (by simp [Block.methodGroupsOf, empty])
  · rw [found]
    simp

/-- The blocks that describe a method are all among those that are added where
no other block does. -/
theorem methodGroups_fill_of_eq_nil {place : Place}
    (undescribed : (place.fill []).methodGroups kind name = [])
    (blocks : List Block) :
    (place.fill blocks).methodGroups kind name =
      Block.methodGroupsOf kind name blocks := by
  rcases methodGroups_fill_cases kind name place with
    ⟨before, after, found | ⟨heading, inner, found⟩⟩
  · rw [found] at undescribed ⊢
    simp only [List.append_eq_nil_iff] at undescribed
    simp [undescribed]
  · rw [found] at undescribed
    simp at undescribed

theorem heldGroups_fill_le (blocks : List Block) (place : Place) :
    heldGroups ((place.fill []).methodGroups kind name) ≤
      heldGroups ((place.fill blocks).methodGroups kind name) := by
  rcases methodGroups_fill_cases kind name place with
    ⟨before, after, found | ⟨heading, inner, found⟩⟩
  · simp only [found, heldGroups_append, Block.methodGroupsOf]
    have none' : heldGroups [] = 0 := rfl
    omega
  · have more := childGroups_fill_le heading blocks inner
    simp only [found, heldGroups_append, heldGroups_cons]
    omega

theorem holdsScenario_fill (blocks : List Block) {place : Place}
    (held : holdsScenario ((place.fill []).methodGroups kind name) = true) :
    holdsScenario ((place.fill blocks).methodGroups kind name) = true := by
  rcases methodGroups_fill_cases kind name place with
    ⟨before, after, found | ⟨heading, inner, found⟩⟩
  · simp only [found, holdsScenario, List.any_append, Block.methodGroupsOf,
      List.any_nil, Bool.false_or, Bool.or_eq_true] at held ⊢
    rcases held with held | held
    · exact .inl held
    · exact .inr (.inr held)
  · have more := childScenarios_fill_le heading blocks inner
    simp only [found, holdsScenario, List.any_append, List.any_cons,
      Bool.or_eq_true, Bool.not_eq_true', List.isEmpty_eq_false_iff,
      ← List.length_pos_iff] at held ⊢
    rcases held with held | held | held
    · exact .inl held
    · exact .inr (.inl (Nat.lt_of_lt_of_le held more))
    · exact .inr (.inr held)

end Place

/-! ## Contexts -/

/--
Whether a block that is added at a place hides the scenario that is the one
context of a method: no group describes the method but some scenario tests it,
and the block has groups that describe the method and hold nothing.
-/
structure Place.IsHiddenBy (name : String) (block : Block) (place : Place) :
    Prop where
  undescribed : (place.fill []).methodGroups none name = []
  tested : (place.fill []).hasVerbScenario name = true
  describes : block.methodGroups none name ≠ []
  holdsNothing : ∀ group ∈ block.methodGroups none name, group.children = []

namespace Place

variable {name : String} {block : Block} {place : Place}

theorem methodGroups_fill_singleton
    (undescribed : (place.fill []).methodGroups none name = []) :
    (place.fill [block]).methodGroups none name =
      block.methodGroups none name := by
  rw [methodGroups_fill_of_eq_nil undescribed, Block.methodGroupsOf,
    Block.methodGroupsOf, List.append_nil]

theorem IsHiddenBy.countContexts (hidden : place.IsHiddenBy name block) :
    (place.fill []).countContexts name = 1 ∧
      (place.fill [block]).countContexts name = 0 := by
  constructor
  · rw [Forest.countContexts_of_eq_nil hidden.undescribed, hidden.tested]
    rfl
  · have found : (place.fill [block]).methodGroups none name =
        block.methodGroups none name :=
      methodGroups_fill_singleton hidden.undescribed
    apply Forest.countContexts_of_children_eq_nil
    · rw [found]
      exact hidden.describes
    · rw [found]
      exact hidden.holdsNothing

/-- A block that is added takes no context away unless it hides a scenario. -/
theorem countContexts_fill_le (seen : ¬ place.IsHiddenBy name block) :
    (place.fill []).countContexts name ≤
      (place.fill [block]).countContexts name := by
  by_cases undescribed : (place.fill []).methodGroups none name = []
  · rw [Forest.countContexts_of_eq_nil undescribed]
    split
    · rename_i tested
      apply Nat.one_le_iff_ne_zero.mpr
      intro uncounted
      rcases Forest.cases_of_countContexts_eq_zero uncounted with
        ⟨-, untested⟩ | ⟨described, empty⟩
      · rw [hasVerbScenario_fill, tested, Bool.true_or] at untested
        cases untested
      · rw [methodGroups_fill_singleton undescribed] at described empty
        exact seen ⟨undescribed, tested, described, empty⟩
    · exact Nat.zero_le _
  · rw [Forest.countContexts_of_ne_nil undescribed,
      Forest.countContexts_of_ne_nil
        (methodGroups_fill_ne_nil [block] undescribed)]
    have more : heldGroups ((place.fill []).methodGroups none name) ≤
        heldGroups ((place.fill [block]).methodGroups none name) :=
      heldGroups_fill_le [block] place
    split
    · rename_i scenariosOnly
      rw [holdsScenario_fill [block] scenariosOnly.2]
      split
      · exact Nat.le_refl 1
      · rename_i held
        rw [and_iff_left rfl] at held
        exact Nat.one_le_iff_ne_zero.mpr held
    · split <;> omega

end Place

end SpecAudit.Spec

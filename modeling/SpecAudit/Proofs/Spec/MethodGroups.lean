import Mathlib.Data.List.Basic
import SpecAudit.Spec.Match

/-!
# The groups that describe a method

Whether a block describes a method is said by its heading alone.  The groups
that describe a method are found list by list, and none is found exactly if no
block at any depth describes the method; so a kind narrows what is found, and
what is found without a kind is found under one of the two.
-/

namespace SpecAudit.Spec

open SpecAudit.Method (MethodKind)

/-- Whether a heading is that of a group that describes a method. -/
def Heading.describes (kind : Option MethodKind) (name : String)
    (heading : Heading) : Bool :=
  heading.kind == .group && subjectMatches kind name heading.subject?

@[simp]
theorem Block.describes_block {kind : Option MethodKind} {name : String}
    {heading : Heading} {children : List Block} :
    (Block.block heading children).describes kind name =
      heading.describes kind name :=
  rfl

namespace Block

variable {kind : Option MethodKind} {name : String}

theorem methodGroups_of_describes {block : Block}
    (describes : block.describes kind name = true) :
    block.methodGroups kind name = [block] := by
  rcases block with ⟨heading, children⟩
  rw [methodGroups, if_pos describes]

theorem methodGroups_of_not_describes {heading : Heading}
    {children : List Block}
    (passed : heading.describes kind name = false) :
    (Block.block heading children).methodGroups kind name =
      methodGroupsOf kind name children := by
  rw [methodGroups, describes_block, passed]
  rfl

theorem methodGroupsOf_append (left right : List Block) :
    methodGroupsOf kind name (left ++ right) =
      methodGroupsOf kind name left ++ methodGroupsOf kind name right := by
  induction left with
  | nil => rfl
  | cons first rest induction =>
      rw [List.cons_append, methodGroupsOf, methodGroupsOf, induction,
        List.append_assoc]

theorem methodGroupsOf_singleton_of_describes {block : Block}
    (describes : block.describes kind name = true) :
    methodGroupsOf kind name [block] = [block] := by
  rw [methodGroupsOf, methodGroups_of_describes describes]
  rfl

mutual

theorem methodGroups_eq_nil_iff :
    ∀ {block : Block}, block.methodGroups kind name = [] ↔
      ∀ inner ∈ block.all, inner.describes kind name = false
  | .block heading children => by
      rw [Block.all, List.forall_mem_cons]
      by_cases describes :
          (Block.block heading children).describes kind name = true
      · simp [methodGroups_of_describes describes, describes]
      · have passed : heading.describes kind name = false := by
          simpa using describes
        rw [methodGroups_of_not_describes passed, methodGroupsOf_eq_nil_iff]
        simp [passed]

theorem methodGroupsOf_eq_nil_iff :
    ∀ {blocks : List Block}, methodGroupsOf kind name blocks = [] ↔
      ∀ inner ∈ allOf blocks, inner.describes kind name = false
  | [] => by simp [methodGroupsOf, allOf]
  | first :: rest => by
      rw [methodGroupsOf, allOf, List.append_eq_nil_iff,
        List.forall_mem_append, methodGroups_eq_nil_iff,
        methodGroupsOf_eq_nil_iff]

end

end Block

namespace Forest

/-- No group is found exactly if no block at any depth describes the method. -/
theorem methodGroups_eq_nil_iff {forest : Forest} {kind : Option MethodKind}
    {name : String} :
    forest.methodGroups kind name = [] ↔
      ∀ block ∈ forest.allBlocks, block.describes kind name = false :=
  Block.methodGroupsOf_eq_nil_iff

end Forest

/-! ## Kinds -/

theorem kindMarks_subset (kind : MethodKind) :
    kindMarks (some kind) ⊆ kindMarks none := by
  cases kind <;> simp [kindMarks]

/-- A subject that names a method of a kind names a method. -/
theorem subjectMatches_none {kind : MethodKind} {name : String}
    {subject : Option String}
    (named : subjectMatches (some kind) name subject = true) :
    subjectMatches none name subject = true := by
  cases subject with
  | none => cases named
  | some text =>
      simp only [subjectMatches, List.contains_iff_mem] at named ⊢
      exact List.map_subset _ (kindMarks_subset kind) named

theorem Block.describes_none {kind : MethodKind} {name : String}
    {block : Block} (describes : block.describes (some kind) name = true) :
    block.describes none name = true := by
  simp only [Block.describes, Bool.and_eq_true] at describes ⊢
  exact ⟨describes.1, subjectMatches_none describes.2⟩

/-- Where no group describes a method, none does so under a kind. -/
theorem Forest.methodGroups_eq_nil_of_none {forest : Forest} {name : String}
    (undescribed : forest.methodGroups none name = []) (kind : MethodKind) :
    forest.methodGroups (some kind) name = [] := by
  rw [methodGroups_eq_nil_iff] at undescribed ⊢
  intro block member
  rw [← Bool.not_eq_true]
  intro describes
  have described := Block.describes_none describes
  rw [undescribed block member] at described
  cases described

end SpecAudit.Spec

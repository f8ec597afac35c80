import Mathlib.Algebra.BigOperators.Group.List.Basic
import Mathlib.Algebra.GroupWithZero.Nat
import Mathlib.Data.List.Nodup
import SpecAudit.Syntax.Node

/-!
# Nodes at their places in a tree

The walk below a place meets the children there, each before what lies below
it.  In a well-formed tree a number tells a node from every other one, and so
it tells the place of the node.
-/

namespace SpecAudit.Syntax

/-! ## Walks -/

namespace Node

/-- What a node has whenever its children have it, every node has. -/
theorem induction {motive : Node → Prop}
    (step : ∀ node : Node,
      (∀ child ∈ node.children, motive child) → motive node) :
    ∀ node, motive node
  | .node label children =>
      step (.node label children) fun child _ => induction step child

theorem descendants_eq_descendantsOf (node : Node) :
    node.descendants = descendantsOf node.children := by
  rcases node with ⟨label, children⟩
  rfl

theorem descendants_eq_flatMap (node : Node) :
    node.descendants =
      node.namedChildren.flatMap fun child => child :: child.descendants := by
  rcases node with ⟨label, children⟩
  rw [descendants, namedChildren, children_node]
  induction children with
  | nil => rfl
  | cons first rest induction =>
      rw [descendantsOf, induction, List.filter_cons]
      split <;> simp

theorem occurrences_eq_flatMap (node : Node) (ancestors : List Node) :
    node.occurrences ancestors =
      node.namedChildren.flatMap fun child =>
        ⟨child, node :: ancestors⟩ :: child.occurrences (node :: ancestors) := by
  rcases node with ⟨label, children⟩
  rw [occurrences, namedChildren, children_node]
  generalize Node.node label children :: ancestors = above
  induction children with
  | nil => rfl
  | cons first rest induction =>
      rw [occurrencesOf, induction, List.filter_cons]
      split <;> simp

theorem mem_descendants_iff {node inner : Node} :
    inner ∈ node.descendants ↔
      ∃ child ∈ node.namedChildren,
        inner = child ∨ inner ∈ child.descendants := by
  rw [descendants_eq_flatMap]
  simp

theorem subtree_sublist {node child : Node}
    (member : child ∈ node.namedChildren) :
    (child :: child.descendants).Sublist node.descendants := by
  rw [descendants_eq_flatMap node, List.flatMap_def]
  exact List.sublist_flatten_of_mem (List.mem_map_of_mem member)

end Node

namespace Occurrence

/-- The named children of a node, at their places. -/
def children (occurrence : Occurrence) : List Occurrence :=
  occurrence.node.namedChildren.map fun child =>
    ⟨child, occurrence.node :: occurrence.ancestors⟩

/-- The named nodes below a node, at their places. -/
def below (occurrence : Occurrence) : List Occurrence :=
  occurrence.node.occurrences occurrence.ancestors

theorem below_eq_flatMap (occurrence : Occurrence) :
    occurrence.below =
      occurrence.children.flatMap fun child => child :: child.below := by
  rw [below, Node.occurrences_eq_flatMap, children, List.flatMap_map]
  rfl

/-- What a place has whenever the children there have it, every place has. -/
theorem induction {motive : Occurrence → Prop}
    (step : ∀ occurrence : Occurrence,
      (∀ child ∈ occurrence.children, motive child) → motive occurrence) :
    ∀ occurrence, motive occurrence := by
  rintro ⟨node, ancestors⟩
  induction node using Node.induction generalizing ancestors with
  | step node induction =>
      apply step
      intro child member
      rcases List.mem_map.mp member with ⟨inner, isNamed, rfl⟩
      exact induction inner (List.mem_of_mem_filter isNamed) _

theorem mem_children_iff {occurrence inner : Occurrence} :
    inner ∈ occurrence.children ↔
      inner.node ∈ occurrence.node.namedChildren ∧
        inner.ancestors = occurrence.node :: occurrence.ancestors := by
  rcases inner with ⟨node, ancestors⟩
  simp only [children, List.mem_map, mk.injEq]
  constructor
  · rintro ⟨child, member, rfl, rfl⟩
    exact ⟨member, rfl⟩
  · rintro ⟨member, rfl⟩
    exact ⟨node, member, rfl, rfl⟩

theorem mem_below_of_mem_children {occurrence inner : Occurrence}
    (member : inner ∈ occurrence.children) : inner ∈ occurrence.below := by
  rw [below_eq_flatMap, List.mem_flatMap]
  exact ⟨inner, member, List.mem_cons_self⟩

theorem mem_below_trans {occurrence inner : Occurrence} :
    ∀ {innermost : Occurrence},
      innermost ∈ inner.below → inner ∈ occurrence.below →
      innermost ∈ occurrence.below := by
  induction occurrence using Occurrence.induction with
  | step occurrence induction =>
      intro innermost inside member
      rw [below_eq_flatMap, List.mem_flatMap] at member ⊢
      rcases member with ⟨child, isChild, member⟩
      refine ⟨child, isChild, List.mem_cons_of_mem _ ?_⟩
      rcases List.mem_cons.mp member with rfl | member
      · exact inside
      · exact induction child isChild inside member

/-- Whatever lies below a place is a child there or at a place below. -/
theorem exists_parent_of_mem_below {occurrence : Occurrence} :
    ∀ {inner : Occurrence}, inner ∈ occurrence.below →
      ∃ parent ∈ occurrence :: occurrence.below, inner ∈ parent.children := by
  induction occurrence using Occurrence.induction with
  | step occurrence induction =>
      intro inner member
      rw [below_eq_flatMap, List.mem_flatMap] at member
      rcases member with ⟨child, isChild, member⟩
      rcases List.mem_cons.mp member with rfl | member
      · exact ⟨occurrence, List.mem_cons_self, isChild⟩
      · rcases induction child isChild member with ⟨parent, stands, found⟩
        have first := mem_below_of_mem_children isChild
        refine ⟨parent, List.mem_cons_of_mem _ ?_, found⟩
        rcases List.mem_cons.mp stands with rfl | stands
        · exact first
        · exact mem_below_trans stands first

theorem children_sublist_below (occurrence : Occurrence) :
    occurrence.children.Sublist occurrence.below := by
  rw [below_eq_flatMap]
  induction occurrence.children with
  | nil => exact List.Sublist.slnil
  | cons first rest induction =>
      rw [List.flatMap_cons, List.cons_append]
      exact (induction.trans (List.sublist_append_right _ _)).cons_cons first

theorem map_node_below (occurrence : Occurrence) :
    occurrence.below.map node = occurrence.node.descendants := by
  induction occurrence using Occurrence.induction with
  | step occurrence induction =>
      rw [below_eq_flatMap, Node.descendants_eq_flatMap, List.map_flatMap,
        children, List.flatMap_map]
      apply List.flatMap_congr
      intro child member
      rw [List.map_cons]
      congr 1
      exact induction _ (List.mem_map_of_mem member)

theorem sum_below (value : Occurrence → Nat) (occurrence : Occurrence) :
    (occurrence.below.map value).sum =
      (occurrence.children.map fun child =>
        value child + (child.below.map value).sum).sum := by
  rw [below_eq_flatMap, List.map_flatMap, List.flatMap_def, List.sum_flatten,
    List.map_map]
  rfl

end Occurrence

/-! ## Well-formed trees -/

namespace Node

/-- A tree in which every named node has a number of its own, and in which only
named nodes stand as alternatives. -/
structure WellFormed (root : Node) : Prop where
  distinct : ((root :: root.descendants).map id).Nodup
  named : ∀ node ∈ root :: root.descendants, ∀ alternative,
    node.child? "alternative" = some alternative →
    alternative.label.named = true

theorem wellFormed_iff {root : Node} :
    root.WellFormed ↔
      ((root :: root.descendants).map id).Nodup ∧
        ∀ node ∈ root :: root.descendants,
          ∀ alternative ∈ node.child? "alternative",
            alternative.label.named = true :=
  ⟨fun ⟨distinct, named⟩ => ⟨distinct, named⟩,
    fun ⟨distinct, named⟩ => ⟨distinct, named⟩⟩

instance (root : Node) : Decidable root.WellFormed :=
  decidable_of_iff _ wellFormed_iff.symm

namespace WellFormed

variable {root node : Node}

theorem of_mem_namedChildren (wellFormed : root.WellFormed)
    (member : node ∈ root.namedChildren) : node.WellFormed := by
  have part := subtree_sublist member
  constructor
  · exact wellFormed.distinct.sublist ((part.cons root).map id)
  · intro inner lies
    exact wellFormed.named inner (List.mem_cons_of_mem _ (part.subset lies))

/-- Every part of a well-formed tree is well-formed. -/
theorem of_mem_descendants :
    root.WellFormed → node ∈ root.descendants → node.WellFormed := by
  induction root using Node.induction with
  | step root induction =>
      intro wellFormed member
      rcases mem_descendants_iff.mp member with ⟨child, isNamed, lies⟩
      have part := wellFormed.of_mem_namedChildren isNamed
      rcases lies with rfl | lies
      · exact part
      · exact induction child (List.mem_of_mem_filter isNamed) part lies

theorem of_mem (wellFormed : root.WellFormed)
    (stands : node ∈ root :: root.descendants) : node.WellFormed := by
  rcases List.mem_cons.mp stands with rfl | lies
  · exact wellFormed
  · exact wellFormed.of_mem_descendants lies

theorem alternative_mem_namedChildren {alternative : Node}
    (wellFormed : node.WellFormed)
    (found : node.child? "alternative" = some alternative) :
    alternative ∈ node.namedChildren :=
  List.mem_filter.mpr
    ⟨List.mem_of_find?_eq_some found,
      wellFormed.named node List.mem_cons_self alternative found⟩

variable {occurrence : Occurrence}

theorem nodup_map_id_below (wellFormed : occurrence.node.WellFormed) :
    (occurrence.below.map fun inner => inner.node.id).Nodup := by
  have distinct := (List.nodup_cons.mp wellFormed.distinct).2
  rw [← Occurrence.map_node_below, List.map_map] at distinct
  exact distinct

/-- The number of a node tells its place. -/
theorem eq_of_id_eq {left right : Occurrence}
    (wellFormed : occurrence.node.WellFormed)
    (hasLeft : left ∈ occurrence.below) (hasRight : right ∈ occurrence.below)
    (same : left.node.id = right.node.id) : left = right :=
  List.inj_on_of_nodup_map wellFormed.nodup_map_id_below hasLeft hasRight same

theorem nodup_children (wellFormed : occurrence.node.WellFormed) :
    occurrence.children.Nodup :=
  wellFormed.nodup_map_id_below.of_map.sublist
    occurrence.children_sublist_below

end WellFormed

end Node

end SpecAudit.Syntax

import SpecAudit.Proofs.Syntax.Enclosure
import SpecAudit.Syntax.Statement

/-!
# The layout of a tree

In a tree that is laid out as its text, every node lies in its parent and starts
where the siblings before it have ended.  So two nodes next to each other never
cover the same text, and whichever child of a place covers a node below the place
lies on the way to that node.
-/

namespace SpecAudit.Syntax

namespace Node

/-! ## All nodes of a tree -/

mutual

/-- A node and the nodes below it, whether they carry a name of the grammar or
not. -/
def nodes : Node → List Node
  | node label children => node label children :: nodesOf children

/-- The nodes of a list and those below them. -/
def nodesOf : List Node → List Node
  | [] => []
  | first :: rest => nodes first ++ nodesOf rest

end

theorem nodes_eq_flatMap (node : Node) :
    node.nodes = node :: node.children.flatMap nodes := by
  rcases node with ⟨label, children⟩
  rw [nodes, children_node]
  congr 1
  induction children with
  | nil => rfl
  | cons first rest induction => rw [nodesOf, induction, List.flatMap_cons]

variable {node child outer inner left right : Node}

theorem mem_nodes_self (node : Node) : node ∈ node.nodes := by
  rw [nodes_eq_flatMap]
  exact List.mem_cons_self

theorem nodes_sublist_of_mem_children (member : child ∈ node.children) :
    child.nodes.Sublist node.nodes := by
  rw [nodes_eq_flatMap node, List.flatMap_def]
  exact (List.sublist_flatten_of_mem (List.mem_map_of_mem member)).cons node

theorem mem_nodes_of_mem_children (member : child ∈ node.children) :
    child ∈ node.nodes :=
  (nodes_sublist_of_mem_children member).subset (mem_nodes_self child)

theorem mem_children_of_mem_namedChildren
    (member : child ∈ node.namedChildren) : child ∈ node.children :=
  List.mem_of_mem_filter member

theorem mem_nodes_of_mem_descendants :
    inner ∈ node.descendants → inner ∈ node.nodes := by
  induction node using Node.induction with
  | step node induction =>
      intro member
      rcases mem_descendants_iff.mp member with ⟨child, isNamed, lies⟩
      have isChild := mem_children_of_mem_namedChildren isNamed
      apply (nodes_sublist_of_mem_children isChild).subset
      rcases lies with rfl | lies
      · exact mem_nodes_self inner
      · exact induction child isChild lies

theorem mem_nodes_of_mem_subtree (member : inner ∈ node :: node.descendants) :
    inner ∈ node.nodes := by
  rcases List.mem_cons.mp member with rfl | lies
  · exact mem_nodes_self inner
  · exact mem_nodes_of_mem_descendants lies

/-! ## Places in the text -/

theorem covers_iff :
    outer.covers inner = true ↔
      outer.label.start ≤ inner.label.start ∧
        inner.label.stop ≤ outer.label.stop := by
  simp [covers]

theorem covers_refl (node : Node) : node.covers node = true :=
  covers_iff.mpr ⟨Nat.le_refl _, Nat.le_refl _⟩

theorem covers_trans (first : outer.covers node = true)
    (second : node.covers inner = true) : outer.covers inner = true := by
  rw [covers_iff] at first second ⊢
  exact ⟨Nat.le_trans first.1 second.1, Nat.le_trans second.2 first.2⟩

/-- Whether a node ends before another starts. -/
def EndsBefore (left right : Node) : Prop :=
  left.label.stop ≤ right.label.start

instance : DecidableRel EndsBefore :=
  fun left right =>
    inferInstanceAs (Decidable (left.label.stop ≤ right.label.start))

/-- Two nodes of which one ends before the other starts do not cover the same
text. -/
theorem EndsBefore.not_covers (apart : EndsBefore left right)
    (occupied : inner.label.start < inner.label.stop)
    (covered : left.covers inner = true) : right.covers inner = false := by
  rw [Bool.eq_false_iff, Ne, covers_iff]
  rw [covers_iff] at covered
  rw [EndsBefore] at apart
  omega

/-! ## Well-formed layouts -/

/-- A tree that is laid out as its text: its nodes have numbers of their own,
every node lies in its parent and starts where the siblings before it have ended,
and the definition of a method is not empty. -/
structure IsLaidOut (root : Node) : Prop where
  distinct : (root.nodes.map id).Nodup
  forward : ∀ node ∈ root.nodes, node.label.start ≤ node.label.stop
  nested : ∀ node ∈ root.nodes, ∀ child ∈ node.children,
    node.covers child = true
  ordered : ∀ node ∈ root.nodes, node.children.Pairwise EndsBefore
  occupied : ∀ node ∈ root.nodes, node.type = "method" →
    node.label.start < node.label.stop

theorem isLaidOut_iff {root : Node} :
    root.IsLaidOut ↔
      (root.nodes.map id).Nodup ∧
        ∀ node ∈ root.nodes,
          node.label.start ≤ node.label.stop ∧
            (∀ child ∈ node.children, node.covers child = true) ∧
            node.children.Pairwise EndsBefore ∧
            (node.type = "method" → node.label.start < node.label.stop) := by
  constructor
  · rintro ⟨distinct, forward, nested, ordered, occupied⟩
    exact ⟨distinct, fun node member =>
      ⟨forward node member, nested node member, ordered node member,
        occupied node member⟩⟩
  · rintro ⟨distinct, each⟩
    exact ⟨distinct, fun node member => (each node member).1,
      fun node member => (each node member).2.1,
      fun node member => (each node member).2.2.1,
      fun node member => (each node member).2.2.2⟩

instance (root : Node) : Decidable root.IsLaidOut :=
  decidable_of_iff _ isLaidOut_iff.symm

namespace IsLaidOut

theorem of_mem_children (laidOut : node.IsLaidOut)
    (member : child ∈ node.children) : child.IsLaidOut := by
  have part := nodes_sublist_of_mem_children member
  exact
    { distinct := laidOut.distinct.sublist (part.map id)
      forward := fun inner lies => laidOut.forward inner (part.subset lies)
      nested := fun inner lies => laidOut.nested inner (part.subset lies)
      ordered := fun inner lies => laidOut.ordered inner (part.subset lies)
      occupied := fun inner lies => laidOut.occupied inner (part.subset lies) }

theorem covers_child (laidOut : node.IsLaidOut)
    (member : child ∈ node.children) : node.covers child = true :=
  laidOut.nested node (mem_nodes_self node) child member

theorem children_ordered (laidOut : node.IsLaidOut) :
    node.children.Pairwise EndsBefore :=
  laidOut.ordered node (mem_nodes_self node)

/-- The number of a node tells the node. -/
theorem eq_of_id_eq (laidOut : node.IsLaidOut) (hasLeft : left ∈ node.nodes)
    (hasRight : right ∈ node.nodes) (same : left.id = right.id) :
    left = right :=
  List.inj_on_of_nodup_map laidOut.distinct hasLeft hasRight same

theorem covers_of_mem_descendants :
    node.IsLaidOut → inner ∈ node.descendants → node.covers inner = true := by
  induction node using Node.induction with
  | step node induction =>
      intro laidOut member
      rcases mem_descendants_iff.mp member with ⟨child, isNamed, lies⟩
      have isChild := mem_children_of_mem_namedChildren isNamed
      have covered := laidOut.covers_child isChild
      rcases lies with rfl | lies
      · exact covered
      · exact covers_trans covered
          (induction child isChild (laidOut.of_mem_children isChild) lies)

theorem covers_of_mem_subtree (laidOut : node.IsLaidOut)
    (member : inner ∈ node :: node.descendants) :
    node.covers inner = true := by
  rcases List.mem_cons.mp member with rfl | lies
  · exact covers_refl inner
  · exact laidOut.covers_of_mem_descendants lies

/-- Text that is not empty is covered by one child at most. -/
theorem eq_of_covers (laidOut : node.IsLaidOut)
    (occupied : inner.label.start < inner.label.stop)
    (hasLeft : left ∈ node.children) (hasRight : right ∈ node.children)
    (covered : left.covers inner = true)
    (covered' : right.covers inner = true) : left = right := by
  have apart : node.children.Pairwise fun left right =>
      ¬(left.covers inner = true ∧ right.covers inner = true) := by
    refine laidOut.children_ordered.imp fun before both => ?_
    exact Bool.false_ne_true
      ((before.not_covers occupied both.1).symm.trans both.2)
  have symmetric : Std.Symm fun left right : Node =>
      ¬(left.covers inner = true ∧ right.covers inner = true) :=
    ⟨fun _ _ differ both => differ both.symm⟩
  by_contra differ
  exact apart.forall hasLeft hasRight differ ⟨covered, covered'⟩

end IsLaidOut

/-! ## Statements -/

/-- The statements of a node are children of it, or children of a body in it. -/
theorem statements_sublist (node : Node) :
    node.statements.Sublist node.children ∨
      ∃ body ∈ node.children, body.isContainer = true ∧
        node.statements.Sublist body.children := by
  have own (parent : Node) : parent.ownStatements.Sublist parent.children :=
    List.filter_sublist.trans List.filter_sublist
  unfold statements
  cases found : node.child? "body" with
  | none => exact .inl (own node)
  | some body =>
      have isChild := List.mem_of_find?_eq_some found
      by_cases container : body.isContainer = true
      · simp only [container, if_true]
        exact .inr ⟨body, isChild, container, own body⟩
      · simp only [container]
        exact .inl (List.singleton_sublist.mpr isChild)

namespace IsLaidOut

theorem exists_parent_of_statements (laidOut : node.IsLaidOut) :
    ∃ parent : Node, parent.IsLaidOut ∧
      node.statements.Sublist parent.children := by
  rcases statements_sublist node with own | ⟨body, isChild, -, own⟩
  · exact ⟨node, laidOut, own⟩
  · exact ⟨body, laidOut.of_mem_children isChild, own⟩

theorem statements_ordered (laidOut : node.IsLaidOut) :
    node.statements.Pairwise EndsBefore := by
  rcases laidOut.exists_parent_of_statements with ⟨parent, inner, own⟩
  exact inner.children_ordered.sublist own

theorem of_mem_statements (laidOut : node.IsLaidOut)
    (member : child ∈ node.statements) : child.IsLaidOut := by
  rcases laidOut.exists_parent_of_statements with ⟨parent, inner, own⟩
  exact inner.of_mem_children (own.subset member)

end IsLaidOut

end Node

/-! ## The way to a node -/

namespace Occurrence

open Node (IsLaidOut)

variable {occurrence inner : Occurrence} {node : Node}

/-- Whether a place is the given one or lies below it. -/
def StandsIn (inner outer : Occurrence) : Prop :=
  inner ∈ outer :: outer.below

theorem exists_child_of_mem_below (member : inner ∈ occurrence.below) :
    ∃ child ∈ occurrence.children, inner.StandsIn child := by
  rw [below_eq_flatMap, List.mem_flatMap] at member
  exact member

theorem mem_below_of_standsIn_child {child : Occurrence}
    (isChild : child ∈ occurrence.children) (stands : inner.StandsIn child) :
    inner ∈ occurrence.below := by
  rw [below_eq_flatMap, List.mem_flatMap]
  exact ⟨child, isChild, stands⟩

theorem StandsIn.mem_subtree (stands : inner.StandsIn occurrence) :
    inner.node ∈ occurrence.node :: occurrence.node.descendants := by
  rw [← map_node_below, ← List.map_cons (f := Occurrence.node)]
  exact List.mem_map_of_mem stands

theorem mem_ancestors_of_mem_below :
    inner ∈ occurrence.below →
      occurrence.node ∈ inner.ancestors ∧
        occurrence.ancestors ⊆ inner.ancestors := by
  induction occurrence using Occurrence.induction with
  | step occurrence induction =>
      intro member
      rcases exists_child_of_mem_below member with ⟨child, isChild, stands⟩
      have around := (mem_children_iff.mp isChild).2
      have kept : child.ancestors ⊆ inner.ancestors := by
        rcases List.mem_cons.mp stands with rfl | lies
        · exact List.Subset.refl _
        · exact (induction child isChild lies).2
      rw [around] at kept
      exact List.cons_subset.mp kept

theorem StandsIn.mem_ancestors (stands : inner.StandsIn occurrence) :
    occurrence.node ∈ inner.node :: inner.ancestors := by
  rcases List.mem_cons.mp stands with rfl | lies
  · exact List.mem_cons_self
  · exact List.mem_cons_of_mem _ (mem_ancestors_of_mem_below lies).1

/-- Whatever a node below a place lies in is around the place, or at a place that
is not above it. -/
theorem exists_place_of_mem_ancestors :
    inner ∈ occurrence.below → node ∈ inner.ancestors →
      node ∈ occurrence.ancestors ∨
        ∃ place : Occurrence, place.StandsIn occurrence ∧ place.node = node ∧
          inner ∈ place.below := by
  induction occurrence using Occurrence.induction with
  | step occurrence induction =>
      intro member around
      rcases exists_child_of_mem_below member with ⟨child, isChild, stands⟩
      have above := (mem_children_iff.mp isChild).2
      have up : node ∈ child.ancestors →
          node ∈ occurrence.ancestors ∨
            ∃ place : Occurrence, place.StandsIn occurrence ∧ place.node = node ∧
              inner ∈ place.below := by
        rw [above, List.mem_cons]
        rintro (rfl | higher)
        · exact .inr ⟨occurrence, List.mem_cons_self, rfl, member⟩
        · exact .inl higher
      rcases List.mem_cons.mp stands with rfl | lies
      · exact up around
      · rcases induction child isChild lies around with
          higher | ⟨place, found, same, below⟩
        · exact up higher
        · have placed := mem_below_of_standsIn_child isChild found
          exact .inr ⟨place, List.mem_cons_of_mem _ placed, same, below⟩

theorem isLaidOut_of_standsIn :
    occurrence.node.IsLaidOut → inner.StandsIn occurrence →
      inner.node.IsLaidOut := by
  induction occurrence using Occurrence.induction with
  | step occurrence induction =>
      intro laidOut stands
      rcases List.mem_cons.mp stands with rfl | lies
      · exact laidOut
      · rcases exists_child_of_mem_below lies with ⟨child, isChild, stands⟩
        have isNamed := (mem_children_iff.mp isChild).1
        exact induction child isChild
          (laidOut.of_mem_children (Node.mem_children_of_mem_namedChildren isNamed))
          stands

/-- A child that covers a node below the place is the one on the way to it. -/
theorem exists_child_of_covers (laidOut : occurrence.node.IsLaidOut)
    (member : inner ∈ occurrence.below)
    (occupied : inner.node.label.start < inner.node.label.stop)
    (isChild : node ∈ occurrence.node.children)
    (covered : node.covers inner.node = true) :
    ∃ child ∈ occurrence.children, child.node = node ∧
      inner.StandsIn child := by
  rcases exists_child_of_mem_below member with ⟨child, placed, stands⟩
  have isChild' := Node.mem_children_of_mem_namedChildren
    (mem_children_iff.mp placed).1
  have covered' := (laidOut.of_mem_children isChild').covers_of_mem_subtree
    stands.mem_subtree
  exact ⟨child, placed,
    laidOut.eq_of_covers occupied isChild' isChild covered' covered, stands⟩

/--
A statement that covers a node below its place is on the way to that node, unless
the node is a body that holds the statement.
-/
theorem exists_place_of_covers (laidOut : occurrence.node.IsLaidOut)
    (member : inner ∈ occurrence.below)
    (occupied : inner.node.label.start < inner.node.label.stop)
    (noBody : inner.node.isContainer = false)
    (isStatement : node ∈ occurrence.node.statements)
    (covered : node.covers inner.node = true) :
    ∃ place, place.node = node ∧ inner.StandsIn place := by
  rcases occurrence.node.statements_sublist with
    own | ⟨body, isBody, container, own⟩
  · rcases exists_child_of_covers laidOut member occupied
        (own.subset isStatement) covered with ⟨place, -, same, stands⟩
    exact ⟨place, same, stands⟩
  · have part := laidOut.of_mem_children isBody
    have whole := Node.covers_trans (part.covers_child (own.subset isStatement))
      covered
    rcases exists_child_of_covers laidOut member occupied isBody whole with
      ⟨place, -, rfl, stands⟩
    rcases List.mem_cons.mp stands with rfl | lies
    · exact absurd container (Bool.eq_false_iff.mp noBody)
    · rcases exists_child_of_covers part lies occupied
          (own.subset isStatement) covered with ⟨inside, -, same, stands⟩
      exact ⟨inside, same, stands⟩

end Occurrence

end SpecAudit.Syntax

import SpecAudit.Method.Site
import SpecAudit.Proofs.Preorder.Position
import SpecAudit.Proofs.Syntax.Occurrence
import SpecAudit.Proofs.Syntax.Placement
import SpecAudit.Spec.Block

/-!
# Nodes, blocks and methods in document order

The named nodes below a node and the blocks of a forest are met by a walk with a
stack, at every position once and in the order of the positions.  The methods of a
source file are the definitions on this walk.  Where no node begins in front of one
that is met earlier, no method does.
-/

namespace SpecAudit

open Syntax Spec

/-! ## What is walked over -/

/-- The named nodes of a syntax tree. -/
def nodeTrees : Branching Node where
  parts := Node.namedChildren
  listing node := node :: node.descendants
  listing_eq node := by rw [← Node.descendants_eq_flatMap]

theorem allOf_eq_flatMap (blocks : List Block) :
    Block.allOf blocks = blocks.flatMap Block.all := by
  induction blocks with
  | nil => rfl
  | cons first rest induction =>
      rw [Block.allOf, induction, List.flatMap_cons]

/-- The blocks of a document. -/
def blockTrees : Branching Block where
  parts := Block.children
  listing := Block.all
  listing_eq
    | .block heading children => by
        rw [Block.all, allOf_eq_flatMap]
        rfl

theorem nodeTrees_flatMap_listing (root : Node) :
    root.namedChildren.flatMap nodeTrees.listing = root.descendants :=
  root.descendants_eq_flatMap.symm

theorem blockTrees_flatMap_listing (forest : Forest) :
    forest.flatMap blockTrees.listing = forest.allBlocks :=
  (allOf_eq_flatMap forest).symm

/-! ## Definitions on the walk -/

namespace Method

/-- Whether a method begins where another one does or in front of it. -/
def Site.IsUpTo (left right : Site) : Prop :=
  left.line < right.line ∨ left.line = right.line ∧ left.column ≤ right.column

variable {root : Node} {text : String}

theorem isUpTo_siteOf {left right : Occurrence}
    (before : left.node.label.startPoint.IsUpTo right.node.label.startPoint) :
    (siteOf left).IsUpTo (siteOf right) :=
  before.imp Nat.succ_lt_succ (.imp_left (congrArg Nat.succ))

variable (root)

/-- Every definition below a node is the definition of one method. -/
theorem map_node_sites :
    (sites root).map Site.node = root.descendants.filter isDefinition := by
  rw [← Occurrence.map_node_below ⟨root, []⟩, List.filter_map, sites,
    List.map_map]
  rfl

variable {root}

theorem isUpTo_startPoint
    (placed : ∀ node ∈ root.descendants, node.IsPlacedIn text)
    (ordered : root.descendants.Pairwise (·.label.start ≤ ·.label.start)) :
    root.descendants.Pairwise fun left right =>
      left.label.startPoint.IsUpTo right.label.startPoint := by
  refine ordered.imp_of_mem fun {left right} isLeft isRight before => ?_
  rw [placed left isLeft, placed right isRight]
  exact pointAt_isUpTo text before

theorem pairwise_sites
    (placed : ∀ node ∈ root.descendants, node.IsPlacedIn text)
    (ordered : root.descendants.Pairwise (·.label.start ≤ ·.label.start)) :
    (sites root).Pairwise Site.IsUpTo := by
  have places := isUpTo_startPoint placed ordered
  rw [← Occurrence.map_node_below ⟨root, []⟩, List.pairwise_map] at places
  exact List.pairwise_map.mpr ((places.filter _).imp isUpTo_siteOf)

end Method

/--
A walk with a stack that starts with the named children of a node, the first of
them on top, meets what the recursion over the tree lists: the named nodes at all
positions below the node, once each, a node before those inside it and those before
the nodes beside it.  The same holds of a forest and its blocks.  So there is one
method for every definition below a node, and where every node stands at the place
of its offset and no offset falls along the walk, no method begins in front of an
earlier one.
-/
theorem walks_meetInOrder :
    (∀ root : Node,
      nodeTrees.walk root.namedChildren.reverse = root.descendants ∧
      nodeTrees.MeetsInOrder root.namedChildren root.descendants) ∧
    (∀ forest : Forest,
      blockTrees.walk forest.reverse = forest.allBlocks ∧
      blockTrees.MeetsInOrder forest forest.allBlocks) ∧
    ∀ root : Node,
      (Method.sites root).map Method.Site.node =
        root.descendants.filter Method.isDefinition ∧
      ∀ text : String,
        (∀ node ∈ root.descendants, node.IsPlacedIn text) →
        root.descendants.Pairwise (·.label.start ≤ ·.label.start) →
        (Method.sites root).Pairwise Method.Site.IsUpTo := by
  refine ⟨fun root => ?_, fun forest => ?_, fun root => ?_⟩
  · rw [← nodeTrees_flatMap_listing root]
    exact ⟨nodeTrees.walk_reverse _, nodeTrees.meetsInOrder_flatMap _⟩
  · rw [← blockTrees_flatMap_listing forest]
    exact ⟨blockTrees.walk_reverse _, blockTrees.meetsInOrder_flatMap _⟩
  · exact ⟨Method.map_node_sites root, fun text placed ordered =>
      Method.pairwise_sites placed ordered⟩

/-- A method, another one inside it, and a method of the class. -/
def nestedText : String :=
  "class A\n  def b\n    def c; end\n  end\n  def self.d; end\nend\n"

def nestedRows : List Row := [
  ⟨none, "program", none, true, 0, 59⟩,
  ⟨some 0, "class", none, true, 0, 58⟩,
  ⟨some 1, "constant", some "name", true, 6, 7⟩,
  ⟨some 1, "body_statement", some "body", true, 10, 54⟩,
  ⟨some 3, "method", none, true, 10, 36⟩,
  ⟨some 4, "identifier", some "name", true, 14, 15⟩,
  ⟨some 4, "body_statement", some "body", true, 20, 30⟩,
  ⟨some 6, "method", none, true, 20, 30⟩,
  ⟨some 7, "identifier", some "name", true, 24, 25⟩,
  ⟨some 3, "singleton_method", none, true, 39, 54⟩,
  ⟨some 9, "self", some "object", true, 43, 47⟩,
  ⟨some 9, "identifier", some "name", true, 48, 49⟩]

theorem walks_meetInOrder_nested :
    let root := (Tree.ofRows nestedText false nestedRows).root
    (∀ node ∈ root.descendants, node.IsPlacedIn nestedText) ∧
    root.descendants.Pairwise (·.label.start ≤ ·.label.start) ∧
    (Method.sites root).map (fun site => (site.name, site.line, site.column)) =
      [("b", 2, 2), ("c", 3, 4), ("d", 5, 2)] ∧
    (Method.sites root).Pairwise Method.Site.IsUpTo := by
  intro root
  have inside : ∀ node ∈ root.descendants,
      node.label.start ≤ byteLength nestedText.toList := by
    decide +kernel
  have placed : ∀ node ∈ root.descendants, node.IsPlacedIn nestedText :=
    fun node member =>
      (Tree.isLookedUpIn_ofRows nestedText false nestedRows node
        (Node.mem_nodes_of_mem_descendants member)).isPlacedIn (inside node member)
  have ordered : root.descendants.Pairwise (·.label.start ≤ ·.label.start) := by
    decide +kernel
  exact ⟨placed, ordered, by decide +kernel,
    (walks_meetInOrder.2.2 root).2 nestedText placed ordered⟩

end SpecAudit

import SpecAudit.Proofs.Method.Weight
import SpecAudit.Proofs.Syntax.Enclosure

/-!
# Methods inside methods

Whether a node continues a chain is decided by the node it is a child of, so it
does not matter from which of the definitions around it the continuations are
collected.  A definition continues nothing and has no branch of its own.  So a
method that is defined inside another adds to it what it counts by itself.
-/

namespace SpecAudit.Method

open SpecAudit.Syntax

variable {root outer inner : Node}

/-- Whether a node below a definition is counted among its branches. -/
def isCounted (ignoreMemoization : Bool) (definition node : Node) : Bool :=
  !(continuationIds definition.descendants).contains node.id &&
    !(ignoreMemoization && isMemoization node)

/-- What some of the nodes below a definition contribute to its branches. -/
def contributed (ignoreMemoization : Bool) (definition : Node)
    (nodes : List Node) : Nat :=
  ((nodes.filter (isCounted ignoreMemoization definition)).map
    branchContribution).sum

theorem contributed_descendants (ignoreMemoization : Bool) (definition : Node) :
    contributed ignoreMemoization definition definition.descendants =
      countBranches ignoreMemoization definition :=
  rfl

@[simp]
theorem contributed_append (ignoreMemoization : Bool) (definition : Node)
    (left right : List Node) :
    contributed ignoreMemoization definition (left ++ right) =
      contributed ignoreMemoization definition left +
        contributed ignoreMemoization definition right := by
  simp [contributed]

/-! ## Definitions -/

theorem branchContribution_of_isDefinition
    (defines : isDefinition outer = true) : branchContribution outer = 0 := by
  simp only [isDefinition, Bool.or_eq_true, beq_iff_eq] at defines
  rcases defines with kind | kind
  all_goals
    simp [branchContribution, branchKind, isConditionalType, isMultiwayType,
      Node.isCall, kind]

/-- A definition contributes nothing to one that it stands in. -/
theorem contributed_definition (ignoreMemoization : Bool)
    (defines : isDefinition inner = true) :
    contributed ignoreMemoization outer [inner] = 0 := by
  simp only [contributed, List.filter_cons, List.filter_nil]
  split
  · simp [branchContribution_of_isDefinition defines]
  · rfl

/-! ## Continuations -/

/--
Below a node inside another the same continuations are found from the one and
from the other, if neither of the two continues anything.
-/
theorem contains_continuationIds_inner (wellFormed : outer.WellFormed)
    (ends : continuation? outer = none) (lies : inner ∈ outer.descendants)
    (ends' : continuation? inner = none) {node : Node}
    (member : node ∈ inner.descendants) :
    (continuationIds outer.descendants).contains node.id =
      (continuationIds inner.descendants).contains node.id := by
  have whole : (Occurrence.mk outer []).node.WellFormed := wellFormed
  rw [← Occurrence.map_node_below ⟨outer, []⟩] at lies
  rcases List.mem_map.mp lies with ⟨place, stands, rfl⟩
  rw [← Occurrence.map_node_below place] at member
  rcases List.mem_map.mp member with ⟨occurrence, below, rfl⟩
  have part : place.node.WellFormed := by
    apply wellFormed.of_mem_descendants
    rw [← Occurrence.map_node_below ⟨outer, []⟩]
    exact List.mem_map_of_mem stands
  -- Both collections hold the number exactly if the node is a link.
  calc
    (continuationIds outer.descendants).contains occurrence.node.id =
        isLink occurrence :=
      contains_continuationIds whole ends
        (Occurrence.mem_below_trans below stands)
    _ = (continuationIds place.node.descendants).contains
          occurrence.node.id :=
      (contains_continuationIds part ends' below).symm

theorem isCounted_inner (wellFormed : outer.WellFormed)
    (defines : isDefinition outer = true) (lies : inner ∈ outer.descendants)
    (defines' : isDefinition inner = true) (ignoreMemoization : Bool) :
    ∀ node ∈ inner.descendants,
      isCounted ignoreMemoization outer node =
        isCounted ignoreMemoization inner node := by
  intro node member
  rw [isCounted, isCounted,
    contains_continuationIds_inner wellFormed
      (continuation?_eq_none_of_isDefinition defines) lies
      (continuation?_eq_none_of_isDefinition defines') member]

/-- A definition and the nodes below it contribute to a definition around it
what the inner one counts by itself. -/
theorem contributed_subtree (wellFormed : outer.WellFormed)
    (defines : isDefinition outer = true) (lies : inner ∈ outer.descendants)
    (defines' : isDefinition inner = true) (ignoreMemoization : Bool) :
    contributed ignoreMemoization outer (inner :: inner.descendants) =
      countBranches ignoreMemoization inner := by
  have same : contributed ignoreMemoization outer inner.descendants =
      contributed ignoreMemoization inner inner.descendants := by
    rw [contributed, List.filter_congr
      (isCounted_inner wellFormed defines lies defines' ignoreMemoization)]
    rfl
  rw [← List.singleton_append, contributed_append,
    contributed_definition ignoreMemoization defines', same,
    contributed_descendants, Nat.zero_add]

/-! ## Subtrees -/

/-- The nodes below a node are those in the subtree of one of them, and those
met before it and after it. -/
theorem exists_descendants_split (distinct : outer.Distinct)
    (lies : inner ∈ outer.descendants) :
    ∃ before after,
      outer.descendants = before ++ (inner :: inner.descendants ++ after) ∧
        outer.descendants.filter (· ∈ inner :: inner.descendants) =
          inner :: inner.descendants ∧
        outer.descendants.filter (· ∉ inner :: inner.descendants) =
          before ++ after := by
  rcases Node.exists_descendants_eq_append lies with ⟨before, after, piece⟩
  have apart := (List.nodup_cons.mp distinct.nodup).2
  rw [piece, List.nodup_append, List.nodup_append] at apart
  rcases apart with ⟨-, ⟨-, -, behind⟩, ahead⟩
  have earlier : ∀ node ∈ before, node ∉ inner :: inner.descendants :=
    fun node first member =>
      ahead node first node (List.mem_append_left _ member) rfl
  have later : ∀ node ∈ after, node ∉ inner :: inner.descendants :=
    fun node last member => behind node member node last rfl
  refine ⟨before, after, piece, ?_, ?_⟩
  · have nothing : before.filter (· ∈ inner :: inner.descendants) = [] :=
      List.filter_eq_nil_iff.mpr (by simpa using earlier)
    have nothing' : after.filter (· ∈ inner :: inner.descendants) = [] :=
      List.filter_eq_nil_iff.mpr (by simpa using later)
    have everything : (inner :: inner.descendants).filter
        (· ∈ inner :: inner.descendants) = inner :: inner.descendants :=
      List.filter_eq_self.mpr fun node member => decide_eq_true member
    rw [piece, List.filter_append, List.filter_append, nothing, everything,
      nothing', List.append_nil, List.nil_append]
  · have everything : before.filter (· ∉ inner :: inner.descendants) = before :=
      List.filter_eq_self.mpr fun node first =>
        decide_eq_true (earlier node first)
    have everything' : after.filter (· ∉ inner :: inner.descendants) = after :=
      List.filter_eq_self.mpr fun node last => decide_eq_true (later node last)
    have nothing : (inner :: inner.descendants).filter
        (· ∉ inner :: inner.descendants) = [] :=
      List.filter_eq_nil_iff.mpr fun node member stays =>
        of_decide_eq_true stays member
    rw [piece, List.filter_append, List.filter_append, everything, nothing,
      everything', List.nil_append]

/--
A method definition that stands inside another is counted there as it is by
itself: the nodes of its subtree are counted from the outer definition exactly if
they are from the inner one.  So the outer definition has the branches of the
inner one and those that the nodes outside the subtree contribute, and never
fewer than the inner one.
-/
theorem countBranches_eq_add_outside (wellFormed : root.WellFormed)
    (stands : outer ∈ root :: root.descendants)
    (defines : isDefinition outer = true) (lies : inner ∈ outer.descendants)
    (defines' : isDefinition inner = true) (ignoreMemoization : Bool) :
    (∀ node ∈ inner.descendants,
      isCounted ignoreMemoization outer node =
        isCounted ignoreMemoization inner node) ∧
      contributed ignoreMemoization outer
          (outer.descendants.filter (· ∈ inner :: inner.descendants)) =
        countBranches ignoreMemoization inner ∧
      countBranches ignoreMemoization outer =
        countBranches ignoreMemoization inner +
          contributed ignoreMemoization outer
            (outer.descendants.filter (· ∉ inner :: inner.descendants)) ∧
      countBranches ignoreMemoization inner ≤
        countBranches ignoreMemoization outer := by
  have part := wellFormed.of_mem stands
  rcases exists_descendants_split part.distinct lies with
    ⟨before, after, piece, within, outside⟩
  have subtree :=
    contributed_subtree part defines lies defines' ignoreMemoization
  have whole : countBranches ignoreMemoization outer =
      countBranches ignoreMemoization inner +
        contributed ignoreMemoization outer (before ++ after) := by
    rw [← contributed_descendants, piece, contributed_append,
      contributed_append, contributed_append, subtree]
    omega
  refine ⟨isCounted_inner part defines lies defines' ignoreMemoization, ?_, ?_,
    ?_⟩
  · rw [within]
    exact subtree
  · rw [outside]
    exact whole
  · rw [whole]
    exact Nat.le_add_right _ _

/-- A method in an arm of a chain, with a chain and an idiom of its own. -/
def innerMethod : Node :=
  sampleNode 4 "method" none [
    sampleNode 5 "if" none [sampleNode 6 "elsif" "alternative" []],
    sampleNode 7 "operator_assignment" none [
      sampleNode 8 "instance_variable" "left" [],
      sampleNode 9 "||=" "operator" []]]

/-- The method with the chain that the other one stands in. -/
def outerMethod : Node :=
  sampleNode 1 "singleton_method" none [
    sampleNode 2 "if" none [
      sampleNode 3 "elsif" "alternative" [innerMethod]]]

theorem countBranches_eq_add_outside_nested :
    countBranches true innerMethod = 3 ∧
      countBranches true outerMethod = countBranches true innerMethod + 3 ∧
      countBranches false innerMethod = 5 ∧
      countBranches false outerMethod =
        countBranches false innerMethod + 3 := by
  let root := sampleNode 0 "program" none [outerMethod]
  have wellFormed : root.WellFormed := by
    decide +kernel
  have stands : outerMethod ∈ root :: root.descendants := by
    decide +kernel
  have lies : innerMethod ∈ outerMethod.descendants := by
    decide +kernel
  have adds (ignoreMemoization : Bool) :=
    (countBranches_eq_add_outside wellFormed stands (by decide) lies
      (by decide) ignoreMemoization).2.2.1
  refine ⟨by decide +kernel, ?_, by decide +kernel, ?_⟩
  · rw [adds true]
    decide +kernel
  · rw [adds false]
    decide +kernel

end SpecAudit.Method

import Mathlib.Data.List.Pairwise
import SpecAudit.Proofs.Syntax.Occurrence

/-!
# Nodes around a node

Where every node has a number of its own, only the root lies around a child of
the root, and around a node below the child lie the root and whatever lies around
it in the child.  So what is said of all nodes around a node can be shown on the
way down to it.
-/

namespace SpecAudit.Syntax.Node

/-! ## Comparing nodes -/

mutual

/-- Nodes are equal if their labels and their children are. -/
def decideEq : (left right : Node) → Decidable (left = right)
  | .node label children, .node label' children' =>
      if labels : label = label' then
        match decideEqAll children children' with
        | isTrue same => isTrue (by rw [labels, same])
        | isFalse differ => isFalse fun same => by
            cases same
            exact differ rfl
      else isFalse fun same => by
        cases same
        exact labels rfl

/-- Lists of nodes are equal if their nodes are, one after the other. -/
def decideEqAll : (left right : List Node) → Decidable (left = right)
  | [], [] => isTrue rfl
  | [], _ :: _ => isFalse (List.cons_ne_nil _ _).symm
  | _ :: _, [] => isFalse (List.cons_ne_nil _ _)
  | first :: rest, first' :: rest' =>
      match decideEq first first', decideEqAll rest rest' with
      | isTrue same, isTrue others => isTrue (by rw [same, others])
      | isFalse differ, _ => isFalse fun same => by
          cases same
          exact differ rfl
      | _, isFalse differ => isFalse fun same => by
          cases same
          exact differ rfl

end

instance : DecidableEq Node :=
  decideEq

/-! ## Nodes below and around -/

/-- Whether a root or a node below it lies around another node. -/
def Encloses (root outer inner : Node) : Prop :=
  outer ∈ root :: root.descendants ∧ inner ∈ outer.descendants

instance (root outer inner : Node) : Decidable (root.Encloses outer inner) :=
  inferInstanceAs (Decidable (_ ∧ _))

variable {root node child other inner outer : Node}

theorem mem_descendants_of_mem_namedChildren
    (member : child ∈ node.namedChildren) : child ∈ node.descendants :=
  (subtree_sublist member).subset List.mem_cons_self

theorem mem_descendants_of_mem_child (member : child ∈ node.namedChildren)
    (below : inner ∈ child.descendants) : inner ∈ node.descendants :=
  (subtree_sublist member).subset (List.mem_cons_of_mem _ below)

/-- A node below another and the nodes below it are met there in one piece. -/
theorem exists_descendants_eq_append :
    inner ∈ root.descendants →
      ∃ before after,
        root.descendants = before ++ (inner :: inner.descendants ++ after) := by
  induction root using Node.induction with
  | step root induction =>
      intro lies
      rcases mem_descendants_iff.mp lies with ⟨child, member, whole⟩
      rcases List.append_of_mem member with ⟨earlier, later, children⟩
      rw [descendants_eq_flatMap root, children, List.flatMap_append,
        List.flatMap_cons]
      rcases whole with rfl | lies
      · exact ⟨_, _, rfl⟩
      · rcases induction child (List.mem_of_mem_filter member) lies with
          ⟨before, after, piece⟩
        rw [piece]
        refine ⟨earlier.flatMap (fun other => other :: other.descendants) ++
            child :: before,
          after ++ later.flatMap fun other => other :: other.descendants, ?_⟩
        simp

theorem mem_descendants_trans (lies : outer ∈ root.descendants)
    (below : inner ∈ outer.descendants) : inner ∈ root.descendants := by
  rcases exists_descendants_eq_append lies with ⟨before, after, piece⟩
  simp [piece, below]

theorem Encloses.mem_descendants (encloses : root.Encloses outer inner) :
    inner ∈ root.descendants := by
  rcases List.mem_cons.mp encloses.1 with rfl | lies
  · exact encloses.2
  · exact mem_descendants_trans lies encloses.2

theorem Encloses.of_mem_namedChildren (member : child ∈ node.namedChildren)
    (encloses : child.Encloses outer inner) : node.Encloses outer inner :=
  ⟨List.mem_cons_of_mem _ ((subtree_sublist member).subset encloses.1),
    encloses.2⟩

/-- A tree in which every node has a number of its own. -/
def Distinct (root : Node) : Prop :=
  ((root :: root.descendants).map id).Nodup

instance (root : Node) : Decidable root.Distinct :=
  inferInstanceAs (Decidable (List.Nodup _))

namespace Distinct

theorem nodup (distinct : node.Distinct) :
    (node :: node.descendants).Nodup :=
  List.Nodup.of_map id distinct

theorem not_mem_descendants (distinct : node.Distinct) :
    node ∉ node.descendants :=
  (List.nodup_cons.mp distinct.nodup).1

theorem of_mem_namedChildren (distinct : node.Distinct)
    (member : child ∈ node.namedChildren) : child.Distinct :=
  List.Nodup.sublist (((subtree_sublist member).cons node).map id) distinct

/-- No node lies in two children. -/
theorem eq_of_mem_subtrees (distinct : node.Distinct)
    (member : child ∈ node.namedChildren)
    (member' : other ∈ node.namedChildren)
    (lies : inner ∈ child :: child.descendants)
    (lies' : inner ∈ other :: other.descendants) : child = other := by
  have below := (List.nodup_cons.mp distinct.nodup).2
  rw [descendants_eq_flatMap] at below
  have apart := (List.nodup_flatMap.mp below).2
  have symmetric : Std.Symm (Function.onFun List.Disjoint
      fun child : Node => child :: child.descendants) :=
    ⟨fun _ _ disjoint _ left right => disjoint right left⟩
  by_contra differ
  exact apart.forall member member' differ lies lies'

/-- Nothing but the node itself lies around a child of it. -/
theorem encloses_child_iff (distinct : node.Distinct)
    (member : child ∈ node.namedChildren) :
    node.Encloses outer child ↔ outer = node := by
  constructor
  · rintro ⟨lies, below⟩
    rcases List.mem_cons.mp lies with same | lies
    · exact same
    · rcases mem_descendants_iff.mp lies with ⟨other, isNamed, whole⟩
      have inside : child ∈ other.descendants := by
        rcases whole with rfl | lies
        · exact below
        · exact mem_descendants_trans lies below
      have same := distinct.eq_of_mem_subtrees member isNamed
        List.mem_cons_self (List.mem_cons_of_mem _ inside)
      rw [← same] at inside
      exact absurd inside
        (distinct.of_mem_namedChildren member).not_mem_descendants
  · rintro rfl
    exact ⟨List.mem_cons_self, mem_descendants_of_mem_namedChildren member⟩

/-- Around a node below a child are the root and what is around it there. -/
theorem encloses_iff (distinct : node.Distinct)
    (member : child ∈ node.namedChildren)
    (inside : inner ∈ child.descendants) :
    node.Encloses outer inner ↔ outer = node ∨ child.Encloses outer inner := by
  constructor
  · rintro ⟨lies, below⟩
    rcases List.mem_cons.mp lies with same | lies
    · exact .inl same
    · rcases mem_descendants_iff.mp lies with ⟨other, isNamed, whole⟩
      have encloses : other.Encloses outer inner :=
        ⟨List.mem_cons.mpr whole, below⟩
      have same := distinct.eq_of_mem_subtrees member isNamed
        (List.mem_cons_of_mem _ inside)
        (List.mem_cons_of_mem _ encloses.mem_descendants)
      exact .inr (same ▸ encloses)
  · rintro (rfl | encloses)
    · exact ⟨List.mem_cons_self, mem_descendants_of_mem_child member inside⟩
    · exact encloses.of_mem_namedChildren member

end Distinct

end SpecAudit.Syntax.Node

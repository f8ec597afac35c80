import SpecAudit.Proofs.Syntax.Occurrence
import SpecAudit.Syntax.Table

/-!
# Trees read from tables

Every row of a table becomes a node at most once, and its number becomes the
number of the node.  So a tree that is read from a table is well-formed as soon
as only named nodes stand as alternatives in it.
-/

namespace SpecAudit.Syntax

/-- The numbers of nodes and of the named nodes below them. -/
def numbers (nodes : List Node) : List Nat :=
  nodes.flatMap fun node => (node :: node.descendants).map Node.id

theorem map_id_descendants_sublist (label : Label) (children : List Node) :
    ((Node.node label children).descendants.map Node.id).Sublist
      (numbers children) := by
  rw [Node.descendants_eq_flatMap, Node.namedChildren, Node.children_node,
    List.map_flatMap, numbers]
  induction children with
  | nil => exact List.Sublist.slnil
  | cons first rest induction =>
      rw [List.filter_cons, List.flatMap_cons]
      split
      · rw [List.flatMap_cons]
        exact induction.append_left _
      · exact induction.trans (List.sublist_append_right _ _)

/-- The nodes that are read and the rows that are left share no row. -/
theorem readNodes_sublist {label : Nat → Row → Label}
    (numbered : ∀ id row, (label id row).id = id) :
    ∀ (fuel : Nat) (parent? : Option Nat) (rows : List (Nat × Row)),
      (numbers (readNodes label fuel parent? rows).1 ++
          (readNodes label fuel parent? rows).2.map Prod.fst).Sublist
        (rows.map Prod.fst) := by
  intro fuel
  induction fuel with
  | zero =>
      intro parent? rows
      exact List.Sublist.refl _
  | succ fuel induction =>
      intro parent? rows
      cases rows with
      | nil => exact List.Sublist.slnil
      | cons first rest =>
          rcases first with ⟨id, row⟩
          rw [readNodes]
          split
          · cases inner : readNodes label fuel (some id) rest with
            | mk children left =>
                have below := induction (some id) rest
                have beside := induction parent? left
                have own := map_id_descendants_sublist (label id row) children
                rw [inner] at below
                simp only [numbers, List.flatMap_cons, List.map_cons,
                  List.cons_append, List.append_assoc, Node.id,
                  Node.label_node, numbered] at *
                exact ((own.append beside).trans below).cons_cons id
          · exact List.Sublist.refl _

theorem map_fst_mapIdx (rows : List Row) :
    (rows.mapIdx fun id row => (id, row)).map Prod.fst =
      List.range rows.length := by
  apply List.ext_getElem
  · simp
  · intro id inside _
    simp

/-- A tree that is read from a table has a number for each of its nodes. -/
theorem Tree.distinct_ofRows (source : String) (hasError : Bool)
    (rows : List Row) :
    let root := (Tree.ofRows source hasError rows).root
    ((root :: root.descendants).map Node.id).Nodup := by
  intro root
  let label := Row.label source.toUTF8 (points source.toUTF8)
  let numbered := rows.mapIdx fun id row => (id, row)
  have distinct : (numbered.map Prod.fst).Nodup := by
    rw [map_fst_mapIdx]
    exact List.nodup_range
  have read := distinct.sublist
    (readNodes_sublist (fun _ _ => rfl) rows.length none numbered :
      (numbers (readNodes label rows.length none numbered).1 ++ _).Sublist _)
  cases found : (readNodes label rows.length none numbered).1 with
  | nil =>
      have isEmpty : root = emptyTree.root := by
        simp only [root, Tree.ofRows]
        rw [found]
      rw [isEmpty]
      exact List.nodup_singleton _
  | cons first rest =>
      have isFirst : root = first := by
        simp only [root, Tree.ofRows]
        rw [found]
      rw [found, numbers, List.flatMap_cons, List.append_assoc] at read
      rw [isFirst]
      exact (List.nodup_append.mp read).1

/-- A tree that is read from a table is well-formed as soon as only named nodes
stand as alternatives in it. -/
theorem Tree.wellFormed_ofRows {source : String} {hasError : Bool}
    {rows : List Row}
    (named : ∀ node ∈ (Tree.ofRows source hasError rows).root ::
        (Tree.ofRows source hasError rows).root.descendants,
      ∀ alternative, node.child? "alternative" = some alternative →
        alternative.label.named = true) :
    (Tree.ofRows source hasError rows).root.WellFormed :=
  ⟨Tree.distinct_ofRows source hasError rows, named⟩

end SpecAudit.Syntax

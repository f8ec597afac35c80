import SpecAudit.Proofs.Spec.CallForest
import SpecAudit.Proofs.Syntax.Placement
import SpecAudit.Proofs.Text.LineFeeds

/-!
# Where the blocks of a parsed document stand

Every block of a parsed document is declared by a call, and it has the line of
that call.  Its indentation is read from the lines of the document, which are cut
at every line boundary, while the row of the call counts line feeds.  So the
indentation is that of the line of the call as long as every boundary in front of
the call is a line feed; otherwise it is read from a line further up.
-/

namespace SpecAudit.Spec

open SpecAudit.Syntax SpecAudit.Text

/-! ## The calls behind the blocks -/

/-- Whether a block has the heading that a call declares. -/
def IsDeclaredBy (lines : List (List Char)) (block : Block) (call : Node) :
    Prop :=
  ∃ kind, callKind? call = some kind ∧
    block.heading = callHeading lines kind call

/-- Whether calls among the given nodes declare the blocks of a forest, one after
the other. -/
def AreDeclaredIn (lines : List (List Char)) (nodes : List Node)
    (forest : Forest) : Prop :=
  ∃ calls : List Node, calls.Sublist nodes ∧
    List.Forall₂ (IsDeclaredBy lines) forest.allBlocks calls

namespace AreDeclaredIn

variable {lines : List (List Char)} {nodes others : List Node}
variable {forest forest' : Forest}

theorem mono (declared : AreDeclaredIn lines nodes forest)
    (part : nodes.Sublist others) : AreDeclaredIn lines others forest := by
  rcases declared with ⟨calls, within, headed⟩
  exact ⟨calls, within.trans part, headed⟩

theorem nil (lines : List (List Char)) (nodes : List Node) :
    AreDeclaredIn lines nodes [] :=
  ⟨[], List.nil_sublist nodes, .nil⟩

theorem append (left : AreDeclaredIn lines nodes forest)
    (right : AreDeclaredIn lines others forest') :
    AreDeclaredIn lines (nodes ++ others) (forest ++ forest') := by
  rcases left with ⟨calls, within, headed⟩
  rcases right with ⟨calls', within', headed'⟩
  refine ⟨calls ++ calls', within.append within', ?_⟩
  rw [Forest.allBlocks_append]
  exact List.rel_append headed headed'

/-- A block that a call declares, with blocks inside that others declare. -/
theorem block {call : Node} {kind : BlockKind}
    (declares : callKind? call = some kind)
    (inside : AreDeclaredIn lines nodes forest) :
    AreDeclaredIn lines (call :: nodes)
      [.block (callHeading lines kind call) forest] := by
  rcases inside with ⟨calls, within, headed⟩
  refine ⟨call :: calls, within.cons_cons call, ?_⟩
  rw [Forest.allBlocks, Block.allOf, Block.all, Block.allOf, List.append_nil]
  exact .cons ⟨kind, declares, rfl⟩ headed

end AreDeclaredIn

section Declared

variable (lines : List (List Char))

/-- The blocks of the named children are declared below the node if those of each
child are. -/
theorem areDeclaredIn_flatMap (children : List Node)
    (each : ∀ child ∈ children,
      AreDeclaredIn lines child.nodes (callBlocks lines child)) :
    AreDeclaredIn lines (children.flatMap Node.nodes)
      ((children.filter (·.label.named)).flatMap (callBlocks lines)) := by
  induction children with
  | nil => exact .nil lines []
  | cons first rest induction =>
      have others := induction fun child member =>
        each child (List.mem_cons_of_mem _ member)
      rw [List.filter_cons, List.flatMap_cons]
      split
      · rw [List.flatMap_cons]
        exact (each first List.mem_cons_self).append others
      · exact others.mono (List.sublist_append_right _ _)

/-- The blocks of a node are declared by calls among it and the nodes below. -/
theorem areDeclaredIn_callBlocks (node : Node) :
    AreDeclaredIn lines (node.children.flatMap Node.nodes)
        (innerBlocks lines node) ∧
      AreDeclaredIn lines node.nodes (callBlocks lines node) := by
  induction node using Node.induction with
  | step node induction =>
      have inner : AreDeclaredIn lines (node.children.flatMap Node.nodes)
          (innerBlocks lines node) := by
        rw [innerBlocks_eq_flatMap]
        exact areDeclaredIn_flatMap lines node.children fun child member =>
          (induction child member).2
      refine ⟨inner, ?_⟩
      rw [callBlocks_eq, Node.nodes_eq_flatMap]
      cases declares : callKind? node with
      | none => exact inner.mono (List.sublist_cons_self _ _)
      | some kind =>
          cases kind with
          | scenario => exact (AreDeclaredIn.nil lines _).block declares
          | group =>
              apply AreDeclaredIn.block declares
              rw [givenBlocks]
              cases given : node.child? "block" with
              | none => exact .nil lines _
              | some body =>
                  have isChild := List.mem_of_find?_eq_some given
                  have part : (body.children.flatMap Node.nodes).Sublist
                      (node.children.flatMap Node.nodes) := by
                    have whole := List.sublist_flatten_of_mem
                      (List.mem_map_of_mem (f := Node.nodes) isChild)
                    rw [Node.nodes_eq_flatMap body] at whole
                    exact (List.sublist_cons_self _ _).trans whole
                  exact (induction body isChild).1.mono part

end Declared

/-! ## Places in the text -/

/-- Whether a word of a text starts at an offset: behind characters that take up
as many bytes stands one that is not blank. -/
def StartsWord (text : List Char) (offset : Nat) : Prop :=
  ∃ before first after, text = before ++ first :: after ∧
    byteLength before = offset ∧ isBlank first = false

/-- Whether a block has the place of a call behind the given characters: its line
counts the line feeds there, and its indentation is read from the line of that
number, which is the line of the call if every boundary there is a line feed. -/
structure StandsBehind (text before : List Char) (first : Char) (block : Block)
    (call : Node) : Prop where
  declares : callKind? call = some block.heading.kind
  line : block.heading.line = before.count '\n' + 1
  indent : block.heading.indent =
    indentOf ((lines text).getD (block.heading.line - 1) [])
  own : (lines (before ++ [first])).length = block.heading.line ↔
    breaksAtFeeds before = true
  indent_own : breaksAtFeeds before = true →
    block.heading.indent = indentOf (lineAt text (block.heading.line - 1))

/-- Whether a block has the place at which its call starts in a text. -/
def StandsAt (text : List Char) (block : Block) (call : Node) : Prop :=
  ∃ before first after, text = before ++ first :: after ∧
    byteLength before = call.label.start ∧
    StandsBehind text before first block call

theorem IsDeclaredBy.standsAt {text : String} {block : Block} {call : Node}
    (declared : IsDeclaredBy (lines text.toList) block call)
    (lookedUp : call.IsLookedUpIn text)
    (starts : StartsWord text.toList call.label.start) :
    StandsAt text.toList block call := by
  rcases declared with ⟨kind, declares, heading⟩
  rcases starts with ⟨before, first, after, split, length, inked⟩
  have inside : call.label.start ≤ byteLength text.toList := by
    rw [split, ← length, byteLength, byteLength, List.map_append,
      List.sum_append]
    exact Nat.le_add_right _ _
  have row : call.label.startPoint.row = before.count '\n' := by
    rw [lookedUp.isPlacedIn inside, ← length, row_pointAt split]
  have line : block.heading.line = before.count '\n' + 1 := by
    rw [heading, callHeading, row]
  have indent : block.heading.indent =
      indentOf ((lines text.toList).getD (before.count '\n') []) := by
    rw [heading, callHeading, row]
  refine ⟨before, first, after, split, length, ?_⟩
  exact
    { declares := by rw [declares, heading]; rfl
      line := line
      indent := by rw [line]; exact indent
      own := by rw [line]; exact (length_lines_append inked before).2
      indent_own := fun feeds => by
        rw [line, indent, split]
        exact indentOf_getD_lines feeds inked after }

theorem hasError_ofRows (text : String) (rows : List Row) :
    (Tree.ofRows text false rows).hasError = false := by
  unfold Tree.ofRows
  dsimp only
  split <;> rfl

/--
Every block of a document that is parsed without errors stands where a call of
its own does.  Its line is one more than the line feeds in front of the call, and
its indentation is that of the line which has this number where the document is
cut at every line boundary.  This is the line of the call exactly if every
boundary in front of the call is a line feed, and then the indentation is that of
the line of the call between two line feeds.
-/
theorem treeForest?_standsAt {text : String} {rows : List Row}
    (starts : ∀ call ∈ (Tree.ofRows text false rows).root.nodes,
      (callKind? call).isSome → StartsWord text.toList call.label.start) :
    ∃ forest, treeForest? text (Tree.ofRows text false rows) = some forest ∧
      ∃ calls : List Node,
        calls.Sublist (Tree.ofRows text false rows).root.nodes ∧
        List.Forall₂ (StandsAt text.toList) forest.allBlocks calls := by
  let root := (Tree.ofRows text false rows).root
  have part : (root.children.flatMap Node.nodes).Sublist root.nodes := by
    rw [Node.nodes_eq_flatMap]
    exact List.sublist_cons_self _ _
  rcases ((areDeclaredIn_callBlocks (lines text.toList) root).1.mono part) with
    ⟨calls, within, headed⟩
  refine ⟨innerBlocks (lines text.toList) root, ?_, calls, within, ?_⟩
  · rw [treeForest?, hasError_ofRows]
    rfl
  · rcases List.forall₂_iff_zip.mp headed with ⟨paired, each⟩
    refine List.forall₂_iff_zip.mpr ⟨paired, fun {block call} listed => ?_⟩
    have declared := each listed
    have lies := within.subset (List.of_mem_zip listed).2
    apply declared.standsAt (Tree.isLookedUpIn_ofRows text false rows call lies)
    rcases declared with ⟨kind, declares, -⟩
    exact starts call lies (by rw [declares]; rfl)

/-- A group with two scenarios.  A letter of two bytes and a carriage return stand
in front of the group, and a comment with a form feed between the scenarios. -/
def feedText : String :=
  "# é\r\ndescribe 'x' do\n  it 'y' do\n  end\n  # a\x0cb\n  it 'z' do\n" ++
    "  end\nend\n"

def feedRows : List Row := [
  ⟨none, "program", none, true, 0, 70⟩,
  ⟨some 0, "comment", none, true, 0, 4⟩,
  ⟨some 0, "call", none, true, 6, 69⟩,
  ⟨some 2, "identifier", some "method", true, 6, 14⟩,
  ⟨some 2, "argument_list", some "arguments", true, 15, 18⟩,
  ⟨some 2, "do_block", some "block", true, 19, 69⟩,
  ⟨some 5, "body_statement", some "body", true, 24, 65⟩,
  ⟨some 6, "call", none, true, 24, 39⟩,
  ⟨some 7, "identifier", some "method", true, 24, 26⟩,
  ⟨some 6, "comment", none, true, 42, 47⟩,
  ⟨some 6, "call", none, true, 50, 65⟩,
  ⟨some 10, "identifier", some "method", true, 50, 52⟩]

/-- Behind the form feed the indentation is that of the line above, which is the
rest of the comment. -/
theorem treeForest?_standsAt_feed :
    (∀ call ∈ (Tree.ofRows feedText false feedRows).root.nodes,
      (callKind? call).isSome → StartsWord feedText.toList call.label.start) ∧
    (∃ forest,
      treeForest? feedText (Tree.ofRows feedText false feedRows) = some forest ∧
      forest.allBlocks.map
          (fun block => (block.heading.line, block.heading.indent)) =
        [(2, 0), (3, 2), (6, 0)] ∧
      ∃ calls : List Node,
        calls.Sublist (Tree.ofRows feedText false feedRows).root.nodes ∧
        List.Forall₂ (StandsAt feedText.toList) forest.allBlocks calls) ∧
    indentOf (lineAt feedText.toList 5) = 2 := by
  have offsets : ∀ call ∈ (Tree.ofRows feedText false feedRows).root.nodes,
      (callKind? call).isSome →
        call.label.start = 6 ∨ call.label.start = 24 ∨ call.label.start = 50 := by
    decide +kernel
  have starts : ∀ call ∈ (Tree.ofRows feedText false feedRows).root.nodes,
      (callKind? call).isSome → StartsWord feedText.toList call.label.start := by
    intro call member declares
    rcases offsets call member declares with start | start | start
    · rw [start]
      exact ⟨feedText.toList.take 5, 'd', feedText.toList.drop 6,
        by decide +kernel⟩
    · rw [start]
      exact ⟨feedText.toList.take 23, 'i', feedText.toList.drop 24,
        by decide +kernel⟩
    · rw [start]
      exact ⟨feedText.toList.take 49, 'i', feedText.toList.drop 50,
        by decide +kernel⟩
  have places : (treeForest? feedText (Tree.ofRows feedText false feedRows)).map
      (fun forest => forest.allBlocks.map fun block =>
        (block.heading.line, block.heading.indent)) =
      some [(2, 0), (3, 2), (6, 0)] := by
    decide +kernel
  rcases treeForest?_standsAt starts with ⟨forest, made, calls⟩
  rw [made] at places
  exact ⟨starts, ⟨forest, made, Option.some.inj places, calls⟩, by decide +kernel⟩

end SpecAudit.Spec

import Mathlib.Order.Monotone.Basic
import SpecAudit.Proofs.Spec.OpenGroups
import SpecAudit.Proofs.Text.Indentation

/-!
# Outlines and the order of indentations

An outline compares indentations and does nothing else with them.  So if the
lines of a text are indented anew and their order is kept, the two outlines
stay alike line by line, and so are the forests: only the indentations in their
headings are changed.
-/

namespace SpecAudit.Spec

open SpecAudit.Text

/-! ## Blocks that are indented anew -/

/-- The heading at another indentation. -/
def Heading.reindented (change : Nat → Nat) (heading : Heading) : Heading :=
  { heading with indent := change heading.indent }

namespace Block

mutual

/-- The block with the indentation of every heading in it changed. -/
def reindented (change : Nat → Nat) : Block → Block
  | block heading children =>
    block (heading.reindented change) (reindentedAll change children)

/-- Blocks with the indentation of every heading in them changed. -/
def reindentedAll (change : Nat → Nat) : List Block → List Block
  | [] => []
  | first :: rest => reindented change first :: reindentedAll change rest

end

variable {change : Nat → Nat}

theorem reindentedAll_eq_map (blocks : List Block) :
    reindentedAll change blocks = blocks.map (reindented change) := by
  induction blocks with
  | nil => rfl
  | cons first rest induction => rw [reindentedAll, induction, List.map_cons]

@[simp]
theorem reindented_block (heading : Heading) (children : List Block) :
    reindented change (block heading children) =
      block (heading.reindented change) (children.map (reindented change)) := by
  rw [reindented, reindentedAll_eq_map]

mutual

theorem all_reindented (change : Nat → Nat) :
    ∀ block : Block,
      (block.reindented change).all = block.all.map (reindented change)
  | block heading children => by
      rw [reindented, all, all, List.map_cons, reindented,
        allOf_reindentedAll change children]

theorem allOf_reindentedAll (change : Nat → Nat) :
    ∀ blocks : List Block,
      allOf (reindentedAll change blocks) =
        (allOf blocks).map (reindented change)
  | [] => rfl
  | first :: rest => by
      rw [reindentedAll, allOf, allOf, List.map_append,
        all_reindented change first, allOf_reindentedAll change rest]

end

/-- What a block is about does not depend on where it stands. -/
theorem subject?_reindented (block : Block) :
    (block.reindented change).subject? = block.subject? := by
  cases block
  rfl

end Block

theorem Forest.allBlocks_reindented (change : Nat → Nat) (forest : Forest) :
    Forest.allBlocks (forest.map (Block.reindented change)) =
      forest.allBlocks.map (Block.reindented change) := by
  rw [← Block.reindentedAll_eq_map]
  exact Block.allOf_reindentedAll change forest

/-! ## Outlines that are indented anew -/

/-- The group with its own indentation and those in it changed. -/
def OpenGroup.reindented (change : Nat → Nat) (group : OpenGroup) : OpenGroup where
  heading := group.heading.reindented change
  pending := group.pending
  latest := group.latest.map (Block.reindented change)

namespace Outline

/-- The outline with every indentation in it changed. -/
def reindented (change : Nat → Nat) (outline : Outline) : Outline where
  finished := outline.finished.map (Block.reindented change)
  opened := outline.opened.map (OpenGroup.reindented change)

variable {change : Nat → Nat} {outline : Outline} {indent : Nat}

theorem close_reindented (group : OpenGroup) :
    (group.reindented change).close = group.close.reindented change := by
  simp [OpenGroup.close, OpenGroup.reindented, List.map_reverse]

theorem adopt_reindented (group : OpenGroup) (blocks : List Block) :
    (group.reindented change).adopt (blocks.map (Block.reindented change)) =
      (group.adopt blocks).reindented change := by
  simp [OpenGroup.adopt, OpenGroup.reindented]

theorem declare_reindented (change : Nat → Nat) (outline : Outline)
    (blocks : List Block) :
    (outline.reindented change).declare
        (blocks.map (Block.reindented change)) =
      (outline.declare blocks).reindented change := by
  rcases outline with ⟨finished, _ | ⟨group, outer⟩⟩
  · simp [declare, reindented]
  · simp [declare, reindented, adopt_reindented]

theorem await_reindented (outline : Outline) :
    (outline.reindented change).await = outline.await.reindented change := by
  rcases outline with ⟨finished, _ | ⟨group, outer⟩⟩ <;> rfl

theorem closeInnermost_reindented (change : Nat → Nat) (outline : Outline) :
    (outline.reindented change).closeInnermost =
      outline.closeInnermost.reindented change := by
  rcases outline with ⟨finished, _ | ⟨group, outer⟩⟩
  · rfl
  · have declared := declare_reindented change ⟨finished, outer⟩
      [group.close]
    rw [List.map_singleton, ← close_reindented] at declared
    exact declared

theorem takeEnd_reindented (outline : Outline) :
    (outline.reindented change).takeEnd = outline.takeEnd.reindented change := by
  have closed := closeInnermost_reindented change outline
  rcases outline with ⟨finished, _ | ⟨group, outer⟩⟩
  · rfl
  · by_cases settled : group.pending = 0
    · simpa [takeEnd, settled, reindented, OpenGroup.reindented] using closed
    · simp [takeEnd, settled, reindented, OpenGroup.reindented]

/-! ## Comparing indentations -/

/-- Whether the change keeps the order between an indentation and those of the
open groups. -/
def KeepsOrder (change : Nat → Nat) (indent : Nat) (outline : Outline) : Prop :=
  ∀ heading ∈ outline.openHeadings,
    change indent ≤ change heading.indent ↔ indent ≤ heading.indent

theorem isInside_reindented (keeps : outline.KeepsOrder change indent) :
    (outline.reindented change).isInside (change indent) =
      outline.isInside indent := by
  rcases outline with ⟨finished, _ | ⟨group, outer⟩⟩
  · rfl
  · have same := keeps group.heading List.mem_cons_self
    simp only [isInside, reindented, List.map_cons, OpenGroup.reindented,
      Heading.reindented, decide_eq_decide]
    rw [← Nat.not_le, ← Nat.not_le, same]

theorem closeGroups_reindented {finished : List Block}
    {opened : List OpenGroup}
    (keeps : ∀ heading ∈ opened.map OpenGroup.heading,
      change indent ≤ change heading.indent ↔ indent ≤ heading.indent)
    (closed : List Block) :
    closeGroups (change indent) (finished.map (Block.reindented change))
        (closed.map (Block.reindented change))
        (opened.map (OpenGroup.reindented change)) =
      (closeGroups indent finished closed opened).reindented change := by
  induction opened generalizing closed with
  | nil => simp [closeGroups, reindented]
  | cons group outer induction =>
      rw [List.map_cons, List.forall_mem_cons] at keeps
      have later := induction keeps.2 [(group.adopt closed).close]
      rw [List.map_singleton, ← close_reindented] at later
      have same : change indent ≤
            ((group.adopt closed).reindented change).heading.indent ↔
          indent ≤ (group.adopt closed).heading.indent :=
        keeps.1
      rw [List.map_cons, closeGroups, closeGroups, adopt_reindented]
      by_cases shallow : indent ≤ (group.adopt closed).heading.indent
      · rw [if_pos (same.mpr shallow), if_pos shallow]
        exact later
      · rw [if_neg (fun deep => shallow (same.mp deep)), if_neg shallow]
        rfl

theorem dedent_reindented (keeps : outline.KeepsOrder change indent) :
    (outline.reindented change).dedent (change indent) =
      (outline.dedent indent).reindented change :=
  closeGroups_reindented keeps []

/-! ## Taking in lines -/

theorem takeDeclaration_reindented (kind : BlockKind) (number : Nat)
    (line : List Char) (outline : Outline) :
    (outline.reindented change).takeDeclaration kind number (change indent)
        line =
      (outline.takeDeclaration kind number indent line).reindented change := by
  unfold takeDeclaration
  rcases splitHeading line with ⟨text, closed⟩
  have declared := declare_reindented change outline
    [.block ⟨String.ofList text, indent, number, kind⟩ []]
  rw [List.map_singleton, Block.reindented_block, List.map_nil] at declared
  cases closed with
  | true => exact declared
  | false =>
      cases kind with
      | group => rfl
      | scenario =>
          cases (beforeDo? line).isSome with
          | false => exact declared
          | true => exact (congrArg await declared).trans (await_reindented _)

/-- A line that is indented anew does to the outline what it did. -/
theorem takeRawLine_reindented {raw : List Char} (number : Nat)
    (keeps : trim raw ≠ [] → outline.KeepsOrder change (indentOf raw)) :
    (outline.reindented change).takeRawLine
        (number, reindentedLine change raw) =
      (outline.takeRawLine (number, raw)).reindented change := by
  by_cases empty : trim raw = []
  · rw [takeRawLine_of_eq_nil empty,
      takeRawLine_of_eq_nil (trim_reindentedLine.trans empty)]
  have inked : trim (reindentedLine change raw) ≠ [] := by
    rwa [trim_reindentedLine]
  rw [takeRawLine_of_ne_nil empty, takeRawLine_of_ne_nil inked,
    indentOf_reindentedLine empty, trim_reindentedLine, takeLine, takeLine,
    isInside_reindented (keeps empty)]
  split
  · exact takeEnd_reindented outline
  · rw [dedent_reindented (keeps empty)]
    cases declaredKind? (trim raw) with
    | some kind => exact takeDeclaration_reindented kind number _ _
    | none =>
        cases opensConstruct (trim raw) with
        | true => exact await_reindented _
        | false => rfl

/-- The groups that are open after a line were open before it, or the line has
opened them. -/
theorem mem_openHeadings_takeRawLine {raw : List Char} {number : Nat}
    {heading : Heading}
    (member : heading ∈ (outline.takeRawLine (number, raw)).openHeadings) :
    heading ∈ outline.openHeadings ∨
      trim raw ≠ [] ∧ heading.indent = indentOf raw := by
  by_cases empty : trim raw = []
  · rw [takeRawLine_of_eq_nil empty] at member
    exact .inl member
  rw [takeRawLine_of_ne_nil empty, takeLine] at member
  split at member
  · exact .inl (openHeadings_takeEnd_sublist.subset member)
  · have stays {heading : Heading}
        (found : heading ∈ (outline.dedent (indentOf raw)).openHeadings) :
        heading ∈ outline.openHeadings :=
      openHeadings_dedent_sublist.subset found
    cases declared : declaredKind? (trim raw) with
    | none =>
        rw [declared] at member
        cases opens : opensConstruct (trim raw) with
        | true => exact .inl (stays (by simpa [opens] using member))
        | false => exact .inl (stays (by simpa [opens] using member))
    | some kind =>
        rw [declared] at member
        simp only [(takeDeclaration_cases kind number (indentOf raw) (trim raw)
          (outline.dedent (indentOf raw))).2] at member
        split at member
        · rcases List.mem_cons.mp member with rfl | found
          · exact .inr ⟨empty, rfl⟩
          · exact .inl (stays found)
        · exact .inl (stays member)

/--
The outlines of lines and of the lines indented anew stay alike, if the change
increases on a set of indentations that holds those of all open groups and of
all lines.
-/
theorem takeLines_reindented {occurring : Set Nat}
    (increasing : StrictMonoOn change occurring) (number : Nat) :
    ∀ (lines : List (List Char)) (outline : Outline),
      (∀ heading ∈ outline.openHeadings, heading.indent ∈ occurring) →
      (∀ raw ∈ lines, trim raw ≠ [] → indentOf raw ∈ occurring) →
      (outline.reindented change).takeLines number
          (lines.map (reindentedLine change)) =
        (outline.takeLines number lines).reindented change := by
  intro lines
  induction lines generalizing number with
  | nil =>
      intro outline _ _
      rfl
  | cons raw rest induction =>
      intro outline opened within
      rw [List.forall_mem_cons] at within
      have keeps (inked : trim raw ≠ []) :
          outline.KeepsOrder change (indentOf raw) :=
        fun heading member =>
          increasing.le_iff_le (within.1 inked) (opened heading member)
      rw [List.map_cons, takeLines, takeLines,
        takeRawLine_reindented number keeps]
      refine induction (number + 1) _ (fun heading member => ?_) within.2
      rcases mem_openHeadings_takeRawLine member with old | ⟨inked, same⟩
      · exact opened heading old
      · exact same ▸ within.1 inked

theorem closeAll_reindented (change : Nat → Nat) (closed : List Block)
    (opened : List OpenGroup) :
    forest.closeAll (closed.map (Block.reindented change))
        (opened.map (OpenGroup.reindented change)) =
      (forest.closeAll closed opened).map (Block.reindented change) := by
  induction opened generalizing closed with
  | nil => rfl
  | cons group outer induction =>
      rw [List.map_cons, forest.closeAll, forest.closeAll, ← induction,
        adopt_reindented, close_reindented, List.map_singleton]

theorem forest_reindented (outline : Outline) :
    (outline.reindented change).forest =
      outline.forest.map (Block.reindented change) := by
  have closed := closeAll_reindented change [] outline.opened
  rw [List.map_nil] at closed
  simp only [forest, reindented, closed, List.map_reverse, List.map_append]

end Outline

/--
Indenting the lines of a text anew changes nothing in its forest but the
indentations, if it keeps the order of those that occur: any increasing change
does, and so does moving the whole text to either side, as far as there are
blanks to take away.
-/
theorem outlineForest_reindented {change : Nat → Nat} {text : String}
    (increasing : StrictMonoOn change {indent | indent ∈ indents text}) :
    outlineForest (reindented change text) =
        (outlineForest text).map (Block.reindented change) ∧
      (outlineForest (reindented change text)).allBlocks.map Block.subject? =
        (outlineForest text).allBlocks.map Block.subject? := by
  have alike : outlineForest (reindented change text) =
      (outlineForest text).map (Block.reindented change) := by
    rw [outlineForest_eq_takeLines, outlineForest_eq_takeLines,
      lines_reindented, ← Outline.forest_reindented]
    have run := Outline.takeLines_reindented increasing 1
      (lines text.toList) .start (by simp [Outline.start, Outline.openHeadings])
      (fun raw member inked => mem_indents member inked)
    exact congrArg Outline.forest run
  refine ⟨alike, ?_⟩
  rw [alike, Forest.allBlocks_reindented, List.map_map]
  exact List.map_congr_left fun block _ => block.subject?_reindented

/-- A document with a margin; its group is indented with tabs, and the line
inside it is blank. -/
def marginDocument : String :=
  "  describe '#label' do\r\n\t\t\t\tcontext 'on' do\n \n    end\n  end"

theorem outlineForest_reindented_margin :
    reindented (· - 2) marginDocument =
        "describe '#label' do\r\n  context 'on' do\n \n  end\nend" ∧
      outlineForest "describe '#label' do\r\n  context 'on' do\n \n  end\nend" =
        (outlineForest marginDocument).map (Block.reindented (· - 2)) ∧
      (outlineForest marginDocument).headings.map Heading.indent = [2, 4] := by
  have cut : reindented (· - 2) marginDocument =
      "describe '#label' do\r\n  context 'on' do\n \n  end\nend" := by
    decide +kernel
  have occurring : indents marginDocument = [2, 4, 4, 2] := by decide +kernel
  have increasing : StrictMonoOn (· - 2)
      {indent | indent ∈ indents marginDocument} := by
    intro left isLeft right isRight before
    rw [occurring] at isLeft isRight
    simp only [List.mem_cons, List.not_mem_nil, or_false,
      Set.mem_ofPred_eq] at isLeft isRight
    show left - 2 < right - 2
    omega
  have alike := (outlineForest_reindented increasing).1
  rw [cut] at alike
  exact ⟨cut, alike, by decide +kernel⟩

end SpecAudit.Spec

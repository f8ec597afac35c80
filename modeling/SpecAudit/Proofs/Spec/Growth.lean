import SpecAudit.Proofs.Spec.OutlineSteps

/-!
# How a forest grows

The forest of an outline is what it would be if every open group were closed
at once.  Closing groups and counting constructs therefore change nothing in
it.  Only a line that declares a block does: it adds one block, at the end of
the list of all blocks, inside the innermost group that is still open.
-/

namespace SpecAudit.Spec

open SpecAudit.Text

/-! ## Blocks of a list -/

namespace Block

variable {block : Block} {left right blocks : List Block}

theorem allOf_append (left right : List Block) :
    allOf (left ++ right) = allOf left ++ allOf right :=
  Forest.allBlocks_append left right

theorem mem_allOf_reverse : block ∈ allOf blocks.reverse ↔ block ∈ allOf blocks := by
  induction blocks with
  | nil => rfl
  | cons first rest induction =>
      rw [List.reverse_cons, allOf_append, List.mem_append, induction]
      simp only [allOf, List.append_nil, List.mem_append, or_comm]

end Block

/-- The headings of all blocks of a forest, in document order. -/
def Forest.headings (forest : Forest) : List Heading :=
  forest.allBlocks.map Block.heading

theorem Forest.headings_append (left right : Forest) :
    Forest.headings (left ++ right) =
      Forest.headings left ++ Forest.headings right := by
  simp only [headings, allBlocks_append, List.map_append]

theorem Forest.headings_singleton (heading : Heading) (children : List Block) :
    Forest.headings [.block heading children] =
      heading :: Forest.headings children := by
  simp [headings, allBlocks, Block.allOf, Block.all, Block.heading]

/-- Whether a relation holds between every block and those directly inside. -/
def EveryChild (holds : Heading → Heading → Prop) (blocks : List Block) : Prop :=
  ∀ block ∈ Block.allOf blocks, ∀ inner ∈ block.children,
    holds block.heading inner.heading

section EveryChild

variable {holds : Heading → Heading → Prop} {left right blocks : List Block}

theorem everyChild_append :
    EveryChild holds (left ++ right) ↔
      EveryChild holds left ∧ EveryChild holds right := by
  simp only [EveryChild, Block.allOf_append, List.forall_mem_append]

theorem everyChild_reverse :
    EveryChild holds blocks.reverse ↔ EveryChild holds blocks := by
  simp only [EveryChild, Block.mem_allOf_reverse]

theorem everyChild_singleton {heading : Heading} {children : List Block} :
    EveryChild holds [.block heading children] ↔
      (∀ inner ∈ children, holds heading inner.heading) ∧
        EveryChild holds children := by
  simp only [EveryChild, Block.allOf, Block.all, List.append_nil,
    List.forall_mem_cons, Block.heading, Block.children]

end EveryChild

/-! ## Changes that leave the forest alone -/

namespace Outline

variable {outline : Outline} {finished closed : List Block}
variable {opened : List OpenGroup} {indent : Nat}

theorem adopt_nil (group : OpenGroup) : group.adopt [] = group :=
  rfl

theorem forest_closeGroups :
    (closeGroups indent finished closed opened).forest =
      (forest.closeAll closed opened ++ finished).reverse := by
  induction opened generalizing closed with
  | nil => rfl
  | cons group outer induction =>
      rw [closeGroups]
      split
      · exact induction
      · simp only [forest, forest.closeAll, adopt_nil]

@[simp]
theorem forest_dedent : (outline.dedent indent).forest = outline.forest :=
  forest_closeGroups

@[simp]
theorem forest_await : outline.await.forest = outline.forest := by
  rcases outline with ⟨finished, _ | ⟨group, outer⟩⟩ <;> rfl

@[simp]
theorem forest_closeInnermost :
    outline.closeInnermost.forest = outline.forest := by
  rcases outline with ⟨finished, _ | ⟨group, _ | ⟨next, outer⟩⟩⟩ <;> rfl

@[simp]
theorem forest_takeEnd : outline.takeEnd.forest = outline.forest := by
  rcases outline with ⟨finished, _ | ⟨group, outer⟩⟩
  · rfl
  · by_cases settled : group.pending = 0
    · simp only [takeEnd, if_pos settled, forest_closeInnermost]
    · simp only [takeEnd, if_neg settled]
      rfl

/-- An open group stands in the forest like a block without children. -/
theorem forest_enter (heading : Heading) :
    (outline.enter heading).forest =
      (outline.declare [.block heading []]).forest := by
  rcases outline with ⟨finished, _ | ⟨group, outer⟩⟩ <;> rfl

/-! ## Declaring a block -/

theorem headings_closeAll :
    Forest.headings (forest.closeAll closed opened).reverse =
      Forest.headings (forest.closeAll [] opened).reverse ++
        Forest.headings closed.reverse := by
  induction opened generalizing closed with
  | nil => simp [forest.closeAll, Forest.headings, Forest.allBlocks, Block.allOf]
  | cons group outer induction =>
      have grown (blocks : List Block) :
          Forest.headings [(group.adopt blocks).close].reverse =
            group.heading :: (Forest.headings group.latest.reverse ++
              Forest.headings blocks.reverse) := by
        simp only [OpenGroup.adopt, OpenGroup.close, List.reverse_singleton,
          Forest.headings_singleton, List.reverse_append,
          Forest.headings_append]
      have step (blocks : List Block) :
          Forest.headings (forest.closeAll blocks (group :: outer)).reverse =
            Forest.headings (forest.closeAll [] outer).reverse ++
              (group.heading :: (Forest.headings group.latest.reverse ++
                Forest.headings blocks.reverse)) := by
        rw [forest.closeAll, induction, grown]
      rw [step closed, step []]
      simp [Forest.headings, Forest.allBlocks, Block.allOf]

/-- A block that is declared comes last in document order. -/
theorem headings_forest_declare (heading : Heading) :
    (outline.declare [.block heading []]).forest.headings =
      outline.forest.headings ++ [heading] := by
  have alone : Forest.headings [.block heading []] = [heading] :=
    Forest.headings_singleton heading []
  rcases outline with ⟨finished, _ | ⟨group, outer⟩⟩
  · simp only [declare, forest, forest.closeAll, List.nil_append,
      List.singleton_append, List.reverse_cons, Forest.headings_append, alone]
  · have grown : forest.closeAll [] (group.adopt [.block heading []] :: outer) =
        forest.closeAll [.block heading []] (group :: outer) :=
      rfl
    simp only [declare, forest, List.reverse_append, Forest.headings_append,
      grown, List.append_assoc]
    rw [headings_closeAll, List.reverse_singleton, alone]

theorem everyChild_closeAll {holds : Heading → Heading → Prop} {extra : Prop}
    {old new : Block} (same : new.heading = old.heading)
    (more : EveryChild holds [new] ↔ EveryChild holds [old] ∧ extra) :
    EveryChild holds (forest.closeAll [new] opened) ↔
      EveryChild holds (forest.closeAll [old] opened) ∧ extra := by
  induction opened generalizing old new with
  | nil => exact more
  | cons group outer induction =>
      refine induction rfl ?_
      simp only [OpenGroup.close, OpenGroup.adopt, everyChild_singleton,
        everyChild_reverse, List.mem_reverse, List.forall_mem_append,
        List.forall_mem_singleton, everyChild_append, same, more]
      tauto

/-- A block that is declared stands directly inside the innermost open group. -/
theorem everyChild_forest_declare {holds : Heading → Heading → Prop}
    (heading : Heading) :
    EveryChild holds (outline.declare [.block heading []]).forest ↔
      EveryChild holds outline.forest ∧
        ∀ group ∈ outline.opened.head?, holds group.heading heading := by
  have alone : EveryChild holds [.block heading []] := by
    simp [EveryChild, Block.allOf, Block.all, Block.children]
  rcases outline with ⟨finished, _ | ⟨group, outer⟩⟩
  · simp [declare, forest, forest.closeAll, everyChild_append,
      everyChild_reverse, alone]
  · have grown : EveryChild holds
          (forest.closeAll [(group.adopt [.block heading []]).close] outer) ↔
        EveryChild holds (forest.closeAll [group.close] outer) ∧
          holds group.heading heading := by
      refine everyChild_closeAll rfl ?_
      simp only [OpenGroup.close, OpenGroup.adopt, everyChild_singleton,
        everyChild_reverse, List.mem_reverse, List.forall_mem_append,
        List.forall_mem_singleton, everyChild_append, alone, Block.heading]
      tauto
    simp only [declare, forest, everyChild_append, everyChild_reverse,
      forest.closeAll, adopt_nil, grown, List.head?_cons, Option.mem_def,
      Option.some.injEq, forall_eq']
    tauto

end Outline

end SpecAudit.Spec

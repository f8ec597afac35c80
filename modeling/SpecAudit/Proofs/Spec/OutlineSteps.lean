import Mathlib.Data.List.Basic
import SpecAudit.Spec.Outline

/-!
# Steps of an outline

What single lines do to an outline, and what a run of lines does.  Inside all
open groups, declaring a block and counting a construct leave the groups
alone; a construct that is counted is settled by its `end`, and a group that is
opened is closed by its own, on whichever side of its heading that stands.
-/

namespace SpecAudit.Spec

open SpecAudit.Text

namespace Outline

/-! ## Declaring blocks -/

@[simp]
theorem declare_nil (outline : Outline) : outline.declare [] = outline := by
  rcases outline with ⟨finished, opened⟩
  cases opened <;> rfl

theorem declare_declare (later earlier : List Block) (outline : Outline) :
    (outline.declare earlier).declare later =
      outline.declare (later ++ earlier) := by
  rcases outline with ⟨finished, opened⟩
  cases opened <;> simp [declare, OpenGroup.adopt]

theorem await_declare (blocks : List Block) (outline : Outline) :
    outline.await.declare blocks = (outline.declare blocks).await := by
  rcases outline with ⟨finished, opened⟩
  cases opened <;> rfl

/-! ## Standing inside every open group -/

/-- Whether a line at an indentation stands inside every open group. -/
def Encloses (outline : Outline) (indent : Nat) : Prop :=
  ∀ group ∈ outline.opened.head?, group.heading.indent < indent

@[simp]
theorem encloses_start (indent : Nat) : start.Encloses indent := by
  intro group member
  cases member

@[simp]
theorem encloses_declare {blocks : List Block} {outline : Outline}
    {indent : Nat} :
    (outline.declare blocks).Encloses indent ↔ outline.Encloses indent := by
  rcases outline with ⟨finished, opened⟩
  cases opened <;> simp [Encloses, declare, OpenGroup.adopt]

@[simp]
theorem encloses_await {outline : Outline} {indent : Nat} :
    outline.await.Encloses indent ↔ outline.Encloses indent := by
  rcases outline with ⟨finished, opened⟩
  cases opened <;> simp [Encloses, await]

theorem dedent_of_encloses {outline : Outline} {indent : Nat}
    (inside : outline.Encloses indent) :
    outline.dedent indent = outline := by
  rcases outline with ⟨finished, opened⟩
  cases opened with
  | nil => rfl
  | cons group outer =>
      have deeper : group.heading.indent < indent := inside group rfl
      simp [dedent, closeGroups, Nat.not_le_of_lt deeper, OpenGroup.adopt]

/-! ## Constructs and their ends -/

/-- An `end` inside every open group settles the construct counted last. -/
theorem takeLine_end_await {outline : Outline} {indent : Nat}
    (inside : outline.Encloses indent) (number : Nat) :
    outline.await.takeLine number indent endWord = outline := by
  rcases outline with ⟨finished, opened⟩
  cases opened with
  | nil => rfl
  | cons group outer =>
      have deeper : group.heading.indent < indent := inside group rfl
      have isEndWord : isEnd endWord = true := rfl
      simp [takeLine, await, isInside, deeper, isEndWord, takeEnd]

/-- The outline with one more open group. -/
def enter (heading : Heading) (outline : Outline) : Outline :=
  { outline with opened := ⟨heading, 0, []⟩ :: outline.opened }

theorem encloses_enter {heading : Heading} {outline : Outline} {indent : Nat} :
    (outline.enter heading).Encloses indent ↔ heading.indent < indent := by
  simp [enter, Encloses]

/-- A line that is not to the right of the innermost group closes it. -/
theorem dedent_enter {heading : Heading} {outline : Outline} {indent : Nat}
    (inside : outline.Encloses indent) (shallow : indent ≤ heading.indent)
    (blocks : List Block) :
    ((outline.enter heading).declare blocks).dedent indent =
      outline.declare [.block heading blocks.reverse] := by
  rcases outline with ⟨finished, opened⟩
  cases opened with
  | nil =>
      simp [enter, declare, dedent, closeGroups, OpenGroup.adopt,
        OpenGroup.close, shallow]
  | cons group outer =>
      have deeper : group.heading.indent < indent := inside group rfl
      simp [enter, declare, dedent, closeGroups, OpenGroup.adopt,
        OpenGroup.close, shallow, Nat.not_le_of_lt deeper]

/--
The `end` of a group closes it and declares it where it was opened.  To the
right of the heading of the group this is because no construct in it waits for
an `end`, and elsewhere because the line is not inside the group.
-/
theorem takeLine_end_enter {heading : Heading} {outline : Outline}
    {indent : Nat} (inside : outline.Encloses indent) (number : Nat)
    (blocks : List Block) :
    ((outline.enter heading).declare blocks).takeLine number indent endWord =
      outline.declare [.block heading blocks.reverse] := by
  have isEndWord : isEnd endWord = true := rfl
  have undeclared : declaredKind? endWord = none := rfl
  have opensNothing : opensConstruct endWord = false := rfl
  rcases Nat.lt_or_ge heading.indent indent with deeper | shallow
  · simp [takeLine, enter, declare, isInside, OpenGroup.adopt, deeper,
      isEndWord, takeEnd, closeInnermost, OpenGroup.close]
  · have outside :
        ((outline.enter heading).declare blocks).isInside indent = false := by
      simpa [enter, declare, isInside, OpenGroup.adopt] using shallow
    simp [takeLine, outside, dedent_enter inside shallow, undeclared,
      opensNothing]

/-! ## Runs of lines -/

/-- Take in lines that are numbered from the given number on. -/
def takeLines (number : Nat) (outline : Outline) : List (List Char) → Outline
  | [] => outline
  | raw :: rest =>
      takeLines (number + 1) (outline.takeRawLine (number, raw)) rest

theorem takeLines_append (number : Nat) (outline : Outline)
    (left right : List (List Char)) :
    outline.takeLines number (left ++ right) =
      (outline.takeLines number left).takeLines (number + left.length)
        right := by
  induction left generalizing number outline with
  | nil => rfl
  | cons raw rest induction =>
      simp only [List.cons_append, takeLines, induction, List.length_cons,
        Nat.add_assoc, Nat.add_comm 1]

theorem foldl_takeRawLine_mapIdx (number : Nat) (outline : Outline)
    (lines : List (List Char)) :
    (lines.mapIdx fun index line => (number + index, line)).foldl
        takeRawLine outline =
      outline.takeLines number lines := by
  induction lines generalizing number outline with
  | nil => rfl
  | cons raw rest induction =>
      rw [List.mapIdx_cons, List.foldl_cons, takeLines, ← induction]
      simp only [Nat.add_zero, Nat.add_assoc, Nat.add_comm 1]

theorem takeRawLine_of_eq_nil {raw : List Char} (empty : trim raw = [])
    {number : Nat} {outline : Outline} :
    outline.takeRawLine (number, raw) = outline := by
  simp [takeRawLine, empty]

theorem takeRawLine_of_ne_nil {raw : List Char} (inked : trim raw ≠ [])
    (number : Nat) (outline : Outline) :
    outline.takeRawLine (number, raw) =
      outline.takeLine number (indentOf raw) (trim raw) := by
  simp [takeRawLine, inked]

end Outline

theorem outlineForest_eq_takeLines (text : String) :
    outlineForest text =
      (Outline.start.takeLines 1 (lines text.toList)).forest := by
  rw [outlineForest, numberedLines, ← Outline.foldl_takeRawLine_mapIdx]
  simp only [Nat.add_comm 1]

theorem forest_declare_start (blocks : List Block) :
    (Outline.start.declare blocks).forest = blocks.reverse := by
  simp [Outline.start, Outline.declare, Outline.forest, Outline.forest.closeAll]

end SpecAudit.Spec

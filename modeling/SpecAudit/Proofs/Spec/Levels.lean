import SpecAudit.Proofs.Spec.OpenGroups

/-!
# The levels of an outline

Which line closes what depends only on the indentations of the open groups and
on the numbers of constructs that wait in them.  Here the two are kept on
stacks of their own, and the numbers may be any integers: looking at an empty
stack fails, and nothing keeps the stacks equally high.  They follow the
outline all the same, so that no line ever fails.
-/

namespace SpecAudit.Spec

open SpecAudit.Text

/-- The indentations of the open groups, and the numbers of constructs that
wait in them, the innermost on top of either stack. -/
structure Levels where
  indents : List Nat
  waiting : List Int

namespace Levels

/-- The levels before any line. -/
def start : Levels := ⟨[], []⟩

/-- Change the number on top, which fails if there is none. -/
def count? (change : Int) (levels : Levels) : Option Levels :=
  match levels.waiting with
  | [] => none
  | top :: rest => some { levels with waiting := (top + change) :: rest }

/-- Take the top off both stacks, which fails if either is empty. -/
def pop? (levels : Levels) : Option Levels :=
  match levels.indents, levels.waiting with
  | _ :: indents, _ :: waiting => some ⟨indents, waiting⟩
  | _, _ => none

/-- Take levels off that a line at an indentation is not inside of. -/
def dedent? (indent : Nat) : List Nat → List Int → Option Levels
  | [], waiting => some ⟨[], waiting⟩
  | top :: indents, waiting =>
    if indent ≤ top then
      match waiting with
      | [] => none
      | _ :: waiting => dedent? indent indents waiting
    else some ⟨top :: indents, waiting⟩

/-- An `end` inside the innermost group settles a construct or closes the
group. -/
def takeEnd? (levels : Levels) : Option Levels :=
  match levels.waiting with
  | [] => none
  | top :: _ => if top = 0 then levels.pop? else levels.count? (-1)

/-- Count a construct that a line opens, unless it is outside every group. -/
def await? (opens : Bool) (levels : Levels) : Option Levels :=
  if opens && !levels.indents.isEmpty then levels.count? 1 else some levels

/-- Take in a line, without blanks on either side and not empty, that stood at
an indentation. -/
def takeLine? (indent : Nat) (line : List Char) (levels : Levels) :
    Option Levels :=
  if levels.indents.head?.any (· < indent) && isEnd line then levels.takeEnd?
  else do
    let levels ← dedent? indent levels.indents levels.waiting
    match declaredKind? line with
    | none => levels.await? (opensConstruct line)
    | some kind =>
      if (splitHeading line).2 then some levels
      else
        match kind with
        | .group => some ⟨indent :: levels.indents, 0 :: levels.waiting⟩
        | .scenario => levels.await? (beforeDo? line).isSome

/-- Take in a numbered line as it stands in the document. -/
def takeRawLine? (levels : Levels) (numbered : Nat × List Char) :
    Option Levels :=
  let line := trim numbered.2
  if line.isEmpty then some levels
  else levels.takeLine? (indentOf numbered.2) line

/-! ## The levels of outlines -/

/-- The levels of the open groups of an outline. -/
def of (outline : Outline) : Levels where
  indents := outline.openHeadings.map Heading.indent
  waiting := outline.opened.map fun group => (group.pending : Int)

variable {outline : Outline} {indent : Nat}

theorem of_declare (outline : Outline) (blocks : List Block) :
    of (outline.declare blocks) = of outline := by
  rcases outline with ⟨finished, _ | ⟨group, outer⟩⟩ <;> rfl

theorem await?_of (outline : Outline) (opens : Bool) :
    (of outline).await? opens =
      some (of (if opens then outline.await else outline)) := by
  cases opens with
  | false => rfl
  | true => rcases outline with ⟨finished, _ | ⟨group, outer⟩⟩ <;> rfl

theorem pop?_of (finished : List Block) (group : OpenGroup)
    (outer : List OpenGroup) :
    (of ⟨finished, group :: outer⟩).pop? =
      some (of (Outline.closeInnermost ⟨finished, group :: outer⟩)) := by
  have closed := of_declare ⟨finished, outer⟩ [group.close]
  rw [Outline.closeInnermost, closed]
  rfl

/-- An `end` finds a number where it is inside a group. -/
theorem takeEnd?_of (inside : outline.isInside indent = true) :
    (of outline).takeEnd? = some (of outline.takeEnd) := by
  rcases outline with ⟨finished, _ | ⟨group, outer⟩⟩
  · cases inside
  · by_cases settled : group.pending = 0
    · have popped := pop?_of finished group outer
      simpa [takeEnd?, of, settled, Outline.takeEnd] using popped
    · have fewer : (group.pending : Int) + -1 = (group.pending - 1 : Nat) := by
        omega
      simp [takeEnd?, of, settled, Outline.takeEnd, count?, fewer,
        Outline.openHeadings]

theorem dedent?_of_closeGroups {finished closed : List Block}
    {opened : List OpenGroup} :
    dedent? indent (opened.map (·.heading.indent))
        (opened.map fun group => (group.pending : Int)) =
      some (of (Outline.closeGroups indent finished closed opened)) := by
  induction opened generalizing closed with
  | nil => rfl
  | cons group outer induction =>
      rw [List.map_cons, List.map_cons, dedent?, Outline.closeGroups]
      by_cases shallow : indent ≤ group.heading.indent
      · simpa [OpenGroup.adopt, shallow] using induction
      · simp [OpenGroup.adopt, shallow, of, Outline.openHeadings]

theorem dedent?_of :
    dedent? indent (of outline).indents (of outline).waiting =
      some (of (outline.dedent indent)) := by
  have indents : (of outline).indents =
      outline.opened.map (·.heading.indent) :=
    List.map_map
  rw [indents]
  exact dedent?_of_closeGroups

theorem takeDeclaration_of (kind : BlockKind) (number : Nat)
    (line : List Char) :
    (if (splitHeading line).2 then some (of outline)
      else
        match kind with
        | .group => some ⟨indent :: (of outline).indents,
            0 :: (of outline).waiting⟩
        | .scenario => (of outline).await? (beforeDo? line).isSome) =
      some (of (outline.takeDeclaration kind number indent line)) := by
  unfold Outline.takeDeclaration
  rcases splitHeading line with ⟨text, closed⟩
  cases closed with
  | true => exact congrArg some (of_declare outline _).symm
  | false =>
      cases kind with
      | group => rfl
      | scenario =>
          have declared := await?_of (outline.declare
              [.block ⟨String.ofList text, indent, number, .scenario⟩ []])
            (beforeDo? line).isSome
          rw [of_declare] at declared
          exact declared

/-- The levels follow an outline line by line. -/
theorem takeRawLine?_of (numbered : Nat × List Char) :
    (of outline).takeRawLine? numbered =
      some (of (outline.takeRawLine numbered)) := by
  rcases numbered with ⟨number, raw⟩
  by_cases empty : trim raw = []
  · rw [Outline.takeRawLine_of_eq_nil empty, takeRawLine?, empty,
      List.isEmpty_nil, if_pos rfl]
  have inked : (trim raw).isEmpty = false := by simpa using empty
  have inside : (of outline).indents.head?.any (· < indentOf raw) =
      outline.isInside (indentOf raw) := by
    rw [Outline.isInside_eq, of, List.head?_map, Option.any_map]
  rw [Outline.takeRawLine_of_ne_nil empty, takeRawLine?, inked,
    if_neg Bool.false_ne_true, takeLine?, Outline.takeLine, inside]
  by_cases ends : (outline.isInside (indentOf raw) && isEnd (trim raw)) = true
  · rw [if_pos ends, if_pos ends]
    exact takeEnd?_of (Bool.and_eq_true_iff.mp ends).1
  · rw [if_neg ends, if_neg ends, dedent?_of]
    cases declaredKind? (trim raw) with
    | none => exact await?_of _ _
    | some kind => exact takeDeclaration_of kind number (trim raw)

/-- No run of lines fails. -/
theorem foldlM_takeRawLine?_of (outline : Outline)
    (numbered : List (Nat × List Char)) :
    numbered.foldlM takeRawLine? (of outline) =
      some (of (numbered.foldl Outline.takeRawLine outline)) := by
  induction numbered generalizing outline with
  | nil => rfl
  | cons first rest induction =>
      rw [List.foldlM_cons, takeRawLine?_of]
      exact induction _

end Levels

end SpecAudit.Spec

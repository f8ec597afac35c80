import SpecAudit.Proofs.Spec.Growth

/-!
# The groups that stay open

What a line does to the groups that are open, and to the forest.  A line leaves
open what it is indented deeper than, an `end` perhaps one group less, and a
line that declares a group opens it inside these.  So the open groups are
indented ever deeper from the outermost one inwards.
-/

namespace SpecAudit.Spec

open SpecAudit.Text

/-! ## Declarations -/

/-- The heading of the block that a numbered line declares, if it does. -/
def declaredHeading? (numbered : Nat × List Char) : Option Heading :=
  let line := trim numbered.2
  (declaredKind? line).map fun kind =>
    ⟨String.ofList (splitHeading line).1, indentOf numbered.2, numbered.1, kind⟩

/-- Whether the block that a line declares is closed on that line. -/
def closesAtOnce (raw : List Char) : Bool :=
  (splitHeading (trim raw)).2

variable {raw : List Char} {number : Nat} {heading : Heading}

theorem declaredHeading?_of_eq_nil (empty : trim raw = []) :
    declaredHeading? (number, raw) = none := by
  simp only [declaredHeading?, empty]
  rfl

theorem declaredHeading?_eq_some
    (declared : declaredHeading? (number, raw) = some heading) :
    trim raw ≠ [] ∧ declaredKind? (trim raw) = some heading.kind ∧
      heading.line = number ∧ heading.indent = indentOf raw := by
  refine ⟨fun empty => ?_, ?_⟩
  · rw [declaredHeading?_of_eq_nil empty] at declared
    cases declared
  · rcases Option.map_eq_some_iff.mp declared with ⟨kind, found, rfl⟩
    exact ⟨found, rfl, rfl⟩

/-- An `end` declares nothing. -/
theorem declaredKind?_of_isEnd {line : List Char} (isEndLine : isEnd line = true) :
    declaredKind? line = none := by
  rw [isEnd] at isEndLine
  split at isEndLine
  · rename_i rest found
    rw [afterWord?_eq_some_iff.mp found]
    rfl
  · cases isEndLine

namespace Outline

variable {outline : Outline} {indent : Nat}

/-! ## Open headings -/

/-- The headings of the open groups, the innermost first. -/
def openHeadings (outline : Outline) : List Heading :=
  outline.opened.map OpenGroup.heading

@[simp]
theorem openHeadings_declare (blocks : List Block) :
    (outline.declare blocks).openHeadings = outline.openHeadings := by
  rcases outline with ⟨finished, _ | ⟨group, outer⟩⟩ <;> rfl

@[simp]
theorem openHeadings_await : outline.await.openHeadings = outline.openHeadings := by
  rcases outline with ⟨finished, _ | ⟨group, outer⟩⟩ <;> rfl

@[simp]
theorem openHeadings_enter :
    (outline.enter heading).openHeadings = heading :: outline.openHeadings :=
  rfl

theorem openHeadings_closeGroups {finished closed : List Block}
    {opened : List OpenGroup} :
    (closeGroups indent finished closed opened).openHeadings =
      (opened.map OpenGroup.heading).dropWhile (indent ≤ ·.indent) := by
  induction opened generalizing closed with
  | nil => rfl
  | cons group outer induction =>
      rw [closeGroups, List.map_cons, List.dropWhile_cons]
      by_cases shallow : indent ≤ group.heading.indent
      · simpa [OpenGroup.adopt, shallow] using induction
      · simp [OpenGroup.adopt, shallow, openHeadings]

theorem openHeadings_dedent :
    (outline.dedent indent).openHeadings =
      outline.openHeadings.dropWhile (indent ≤ ·.indent) :=
  openHeadings_closeGroups

theorem openHeadings_closeInnermost :
    outline.closeInnermost.openHeadings = outline.openHeadings.tail := by
  rcases outline with ⟨finished, _ | ⟨group, outer⟩⟩
  · rfl
  · exact openHeadings_declare [group.close]

theorem openHeadings_takeEnd_sublist :
    outline.takeEnd.openHeadings.Sublist outline.openHeadings := by
  rcases outline with ⟨finished, _ | ⟨group, outer⟩⟩
  · exact List.Sublist.refl _
  · by_cases settled : group.pending = 0
    · simp only [takeEnd, if_pos settled, openHeadings_closeInnermost]
      exact List.tail_sublist _
    · simp only [takeEnd, if_neg settled]
      exact List.Sublist.refl _

theorem isInside_eq :
    outline.isInside indent =
      outline.openHeadings.head?.any (·.indent < indent) := by
  rcases outline with ⟨finished, _ | ⟨group, outer⟩⟩ <;>
    simp [isInside, openHeadings]

/-! ## Lines -/

theorem takeDeclaration_cases (kind : BlockKind) (number indent : Nat)
    (line : List Char) (outline : Outline) :
    let heading : Heading :=
      ⟨String.ofList (splitHeading line).1, indent, number, kind⟩
    (outline.takeDeclaration kind number indent line).forest =
        (outline.declare [.block heading []]).forest ∧
      (outline.takeDeclaration kind number indent line).openHeadings =
        if kind = .group ∧ (splitHeading line).2 = false then
          heading :: outline.openHeadings
        else outline.openHeadings := by
  unfold takeDeclaration
  rcases splitHeading line with ⟨text, closed⟩
  cases closed with
  | true => simp
  | false =>
      cases kind with
      | group => exact ⟨forest_enter _, rfl⟩
      | scenario => cases (beforeDo? line).isSome <;> simp

/-- A line that declares no block leaves the forest alone. -/
theorem forest_takeRawLine (numbered : Nat × List Char) :
    (outline.takeRawLine numbered).forest =
      match declaredHeading? numbered with
      | none => outline.forest
      | some heading =>
          ((outline.dedent heading.indent).declare [.block heading []]).forest := by
  rcases numbered with ⟨number, raw⟩
  by_cases empty : trim raw = []
  · rw [takeRawLine_of_eq_nil empty, declaredHeading?_of_eq_nil empty]
  rw [takeRawLine_of_ne_nil empty, takeLine, declaredHeading?]
  by_cases ends : (outline.isInside (indentOf raw) && isEnd (trim raw)) = true
  · rw [if_pos ends, declaredKind?_of_isEnd ((Bool.and_eq_true_iff.mp ends).2)]
    exact forest_takeEnd
  · rw [if_neg ends]
    cases declaredKind? (trim raw) with
    | none => cases opensConstruct (trim raw) <;> simp
    | some kind => exact (takeDeclaration_cases kind _ _ _ _).1

/-- Whether headings are indented ever deeper from the last one to the first. -/
def Descending (headings : List Heading) : Prop :=
  headings.Pairwise fun inner outer => outer.indent < inner.indent

/-- Below what a line is indented deeper than it is deeper than everything. -/
theorem indent_lt_of_mem {headings : List Heading}
    (descending : Descending headings)
    (first : ∀ heading ∈ headings.head?, heading.indent < indent)
    {heading : Heading} (member : heading ∈ headings) :
    heading.indent < indent := by
  cases headings with
  | nil => cases member
  | cons innermost outer =>
      have deeper := first innermost rfl
      rcases List.mem_cons.mp member with rfl | member
      · exact deeper
      · exact Nat.lt_trans (List.rel_of_pairwise_cons descending member) deeper

theorem openHeadings_dedent_sublist :
    (outline.dedent indent).openHeadings.Sublist outline.openHeadings := by
  rw [openHeadings_dedent]
  exact List.dropWhile_sublist _

/-- A line is indented deeper than the groups that it leaves open. -/
theorem indent_lt_of_mem_dedent
    (descending : Descending outline.openHeadings) {heading : Heading}
    (member : heading ∈ (outline.dedent indent).openHeadings) :
    heading.indent < indent := by
  refine indent_lt_of_mem (descending.sublist openHeadings_dedent_sublist)
    (fun first found => ?_) member
  rw [openHeadings_dedent] at found
  have stays := List.head?_dropWhile_not
    (fun heading : Heading => indent ≤ heading.indent) outline.openHeadings
  rw [Option.mem_def.mp found] at stays
  simpa using stays

/--
A line that is not blank leaves some groups open, and is indented deeper than
all of them; if it declares a group that it does not close, then this is opened
inside them.
-/
theorem exists_openHeadings_takeRawLine (number : Nat)
    (descending : Descending outline.openHeadings) (inked : trim raw ≠ []) :
    ∃ kept : List Heading, kept.Sublist outline.openHeadings ∧
      (∀ heading ∈ kept, heading.indent < indentOf raw) ∧
      ((outline.takeRawLine (number, raw)).openHeadings = kept ∨
        ∃ heading, declaredHeading? (number, raw) = some heading ∧
          heading.kind = .group ∧ closesAtOnce raw = false ∧
          (outline.takeRawLine (number, raw)).openHeadings = heading :: kept) := by
  rw [takeRawLine_of_ne_nil inked, takeLine]
  by_cases ends : (outline.isInside (indentOf raw) && isEnd (trim raw)) = true
  · rw [if_pos ends]
    have inside := (Bool.and_eq_true_iff.mp ends).1
    rw [isInside_eq, Option.any_eq_true] at inside
    rcases inside with ⟨innermost, found, deeper⟩
    refine ⟨_, openHeadings_takeEnd_sublist, fun heading member => ?_, .inl rfl⟩
    refine indent_lt_of_mem descending (fun first found' => ?_)
      (openHeadings_takeEnd_sublist.subset member)
    cases (Option.mem_def.mp found').symm.trans found
    exact of_decide_eq_true deeper
  · rw [if_neg ends]
    refine ⟨_, openHeadings_dedent_sublist,
      fun heading => indent_lt_of_mem_dedent descending, ?_⟩
    cases declared : declaredKind? (trim raw) with
    | none => exact .inl (by cases opensConstruct (trim raw) <;> simp)
    | some kind =>
        have opens := (takeDeclaration_cases kind number (indentOf raw)
          (trim raw) (outline.dedent (indentOf raw))).2
        by_cases enters : kind = .group ∧ (splitHeading (trim raw)).2 = false
        · rw [if_pos enters] at opens
          refine .inr ⟨_, ?_, enters.1, enters.2, opens⟩
          rw [declaredHeading?, declared, Option.map_some]
        · rw [if_neg enters] at opens
          exact .inl opens

end Outline

end SpecAudit.Spec

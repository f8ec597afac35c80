import Mathlib.Data.List.Induction
import Mathlib.Data.List.Nodup
import SpecAudit.Proofs.Spec.Levels

/-!
# What the outline of any text is like

Documents need not be balanced: an `end` may be missing, or stand anywhere.  In
any case every line that declares a block gives one block, in order, and a
block stands inside another only as long as nothing was indented less than the
heading of the other.
-/

namespace SpecAudit.Spec

open SpecAudit.Text

/-! ## Headings and the lines after them -/

/-- Whether a numbered line is blank or indented deeper than a heading. -/
def IsDeeper (heading : Heading) (raw : List Char) : Prop :=
  trim raw ≠ [] → heading.indent < indentOf raw

/--
Whether a heading is that of a group that its line does not close, and the
lines after it are deeper.
-/
structure StaysOpen (seen : List (Nat × List Char)) (heading : Heading) :
    Prop where
  isGroup : heading.kind = .group
  opened : ∃ raw, (heading.line, raw) ∈ seen ∧ closesAtOnce raw = false
  deeper : ∀ number raw, (number, raw) ∈ seen → heading.line < number →
    IsDeeper heading raw

/--
Whether a heading is that of a group that its line does not close, and the
lines after it are deeper up to that of another heading.
-/
structure Holds (seen : List (Nat × List Char)) (parent child : Heading) :
    Prop where
  isGroup : parent.kind = .group
  opened : ∃ raw, (parent.line, raw) ∈ seen ∧ closesAtOnce raw = false
  before : parent.line < child.line
  declared : ∃ raw, (child.line, raw) ∈ seen
  deeper : ∀ number raw, (number, raw) ∈ seen → parent.line < number →
    number ≤ child.line → IsDeeper parent raw

section Lines

variable {seen : List (Nat × List Char)} {number : Nat} {raw : List Char}
variable {heading parent child : Heading}

theorem StaysOpen.append (stays : StaysOpen seen heading)
    (deeper : IsDeeper heading raw) :
    StaysOpen (seen ++ [(number, raw)]) heading := by
  rcases stays.opened with ⟨line, member, opens⟩
  refine ⟨stays.isGroup, ⟨line, List.mem_append_left _ member, opens⟩, ?_⟩
  intro number' raw' member' after
  rcases List.mem_append.mp member' with old | new
  · exact stays.deeper number' raw' old after
  · cases List.mem_singleton.mp new
    exact deeper

/-- A group that a line opens has no line after it yet. -/
theorem staysOpen_last (later : ∀ earlier ∈ seen, earlier.1 < number)
    (line : heading.line = number) (isGroup : heading.kind = .group)
    (opens : closesAtOnce raw = false) :
    StaysOpen (seen ++ [(number, raw)]) heading := by
  refine ⟨isGroup, ⟨raw, by simp [line], opens⟩, fun number' raw' among after => ?_⟩
  rcases List.mem_append.mp among with old | new
  · exact absurd (Nat.lt_trans after (line ▸ later _ old)) (Nat.lt_irrefl _)
  · cases List.mem_singleton.mp new
    exact absurd (line ▸ after) (Nat.lt_irrefl _)

/-- What stands inside a block stays there whatever lines follow. -/
theorem Holds.append (holds : Holds seen parent child)
    (later : ∀ earlier ∈ seen, earlier.1 < number) :
    Holds (seen ++ [(number, raw)]) parent child := by
  rcases holds.opened with ⟨line, member, opens⟩
  rcases holds.declared with ⟨line', member'⟩
  refine ⟨holds.isGroup, ⟨line, List.mem_append_left _ member, opens⟩,
    holds.before, ⟨line', List.mem_append_left _ member'⟩, ?_⟩
  intro number' raw' among after upTo
  rcases List.mem_append.mp among with old | new
  · exact holds.deeper number' raw' old after upTo
  · cases List.mem_singleton.mp new
    exact absurd (later _ member') (Nat.not_lt_of_le upTo)

/-- A line that declares a block stands inside a group that is still open. -/
theorem StaysOpen.holds (stays : StaysOpen seen parent)
    (later : ∀ earlier ∈ seen, earlier.1 < number)
    (declared : declaredHeading? (number, raw) = some child)
    (deeper : parent.indent < child.indent) :
    Holds (seen ++ [(number, raw)]) parent child := by
  rcases declaredHeading?_eq_some declared with ⟨-, -, line, indent⟩
  rcases stays.opened with ⟨line', member, opens⟩
  have extended : StaysOpen (seen ++ [(number, raw)]) parent :=
    stays.append fun _ => indent ▸ deeper
  exact ⟨stays.isGroup, extended.opened, line ▸ later _ member,
    ⟨raw, by simp [line]⟩, fun number' raw' among after _ =>
      extended.deeper number' raw' among after⟩

end Lines

/-! ## Runs -/

namespace Outline

/-- What an outline is like after the given numbered lines. -/
structure Follows (seen : List (Nat × List Char)) (outline : Outline) :
    Prop where
  listed : outline.forest.headings = seen.filterMap declaredHeading?
  nested : EveryChild (Holds seen) outline.forest
  stays : ∀ heading ∈ outline.openHeadings, StaysOpen seen heading
  descending : Descending outline.openHeadings

variable {outline : Outline} {seen : List (Nat × List Char)}
variable {number : Nat} {raw : List Char}

theorem follows_start : start.Follows [] where
  listed := rfl
  nested := by simp [start, forest, forest.closeAll, EveryChild, Block.allOf]
  stays := by simp [start, openHeadings]
  descending := List.Pairwise.nil

namespace Follows

variable (follows : outline.Follows seen)

include follows

theorem listed_takeRawLine :
    (outline.takeRawLine (number, raw)).forest.headings =
      (seen ++ [(number, raw)]).filterMap declaredHeading? := by
  rw [forest_takeRawLine, List.filterMap_append, ← follows.listed]
  cases declared : declaredHeading? (number, raw) with
  | none => simp [declared]
  | some heading => simp [declared, headings_forest_declare]

theorem nested_takeRawLine (later : ∀ earlier ∈ seen, earlier.1 < number) :
    EveryChild (Holds (seen ++ [(number, raw)]))
      (outline.takeRawLine (number, raw)).forest := by
  have old : EveryChild (Holds (seen ++ [(number, raw)])) outline.forest :=
    fun block member inner within =>
      (follows.nested block member inner within).append later
  rw [forest_takeRawLine]
  cases declared : declaredHeading? (number, raw) with
  | none => exact old
  | some heading =>
      rw [everyChild_forest_declare, forest_dedent]
      refine ⟨old, fun group innermost => ?_⟩
      have remains : group.heading ∈
          (outline.dedent heading.indent).openHeadings :=
        List.mem_map_of_mem (List.mem_of_mem_head? innermost)
      exact (follows.stays _
        (openHeadings_dedent_sublist.subset remains)).holds later declared
          (indent_lt_of_mem_dedent follows.descending remains)

theorem open_takeRawLine (later : ∀ earlier ∈ seen, earlier.1 < number) :
    (∀ heading ∈ (outline.takeRawLine (number, raw)).openHeadings,
        StaysOpen (seen ++ [(number, raw)]) heading) ∧
      Descending (outline.takeRawLine (number, raw)).openHeadings := by
  by_cases empty : trim raw = []
  · rw [takeRawLine_of_eq_nil empty]
    exact ⟨fun heading member => (follows.stays heading member).append
      fun inked => absurd empty inked, follows.descending⟩
  rcases exists_openHeadings_takeRawLine number follows.descending empty with
    ⟨kept, fewer, deeper, result⟩
  have stays : ∀ heading ∈ kept, StaysOpen (seen ++ [(number, raw)]) heading :=
    fun heading member => (follows.stays heading (fewer.subset member)).append
      fun _ => deeper heading member
  have descending : Descending kept := follows.descending.sublist fewer
  rcases result with same | ⟨heading, declared, isGroup, opens, more⟩
  · rw [same]
    exact ⟨stays, descending⟩
  · rcases declaredHeading?_eq_some declared with ⟨-, -, line, indent⟩
    rw [more]
    constructor
    · exact List.forall_mem_cons.mpr
        ⟨staysOpen_last later line isGroup opens, stays⟩
    · exact List.pairwise_cons.mpr
        ⟨fun outer member => indent ▸ deeper outer member, descending⟩

/-- One more line, with a greater number than all before it. -/
theorem takeRawLine (later : ∀ earlier ∈ seen, earlier.1 < number) :
    (outline.takeRawLine (number, raw)).Follows (seen ++ [(number, raw)]) :=
  ⟨follows.listed_takeRawLine, follows.nested_takeRawLine later,
    (follows.open_takeRawLine later).1, (follows.open_takeRawLine later).2⟩

omit follows

/-- Lines in order, taken in one after the other. -/
theorem of_foldl (ordered : seen.Pairwise fun left right => left.1 < right.1) :
    (seen.foldl Outline.takeRawLine start).Follows seen := by
  induction seen using List.reverseRecOn with
  | nil => exact follows_start
  | append_singleton earlier last induction =>
      rcases last with ⟨number, raw⟩
      rw [List.pairwise_append] at ordered
      rw [List.foldl_append]
      exact (induction ordered.1).takeRawLine fun line member =>
        ordered.2.2 line member _ (List.mem_singleton_self _)

end Follows

end Outline

theorem pairwise_numberedLines (characters : List Char) :
    (numberedLines characters).Pairwise fun left right => left.1 < right.1 := by
  rw [numberedLines, List.pairwise_iff_getElem]
  intro i j _ _ before
  simpa using before

/-- Lines in order have a number each. -/
theorem eq_of_mem_of_mem {numbered : List (Nat × List Char)} {number : Nat}
    {left right : List Char}
    (ordered : numbered.Pairwise fun left right => left.1 < right.1)
    (first : (number, left) ∈ numbered) (second : (number, right) ∈ numbered) :
    left = right := by
  have distinct : (numbered.map Prod.fst).Nodup :=
    List.pairwise_map.mpr (ordered.imp Nat.ne_of_lt)
  exact congrArg Prod.snd
    (List.inj_on_of_nodup_map distinct first second rfl)

/--
Reading the lines of any text never fails: the stacks of its levels stay equally
high, the indentations on the one increase inwards, and no number on the other
is negative.  Its forest has one block for every line that declares one, in
order.  Scenarios and groups that their line closes have no blocks inside, and
a block stands inside a group as long as the lines are deeper than the group.
-/
theorem outlineForest_follows (text : String) :
    (∀ seen, seen <+: numberedLines text.toList →
      ∃ levels, seen.foldlM Levels.takeRawLine? .start = some levels ∧
        levels = .of (seen.foldl Outline.takeRawLine .start) ∧
        levels.indents.length = levels.waiting.length ∧
        levels.indents.Pairwise (· > ·) ∧
        ∀ count ∈ levels.waiting, 0 ≤ count) ∧
      (outlineForest text).headings =
        (numberedLines text.toList).filterMap declaredHeading? ∧
      (∀ block ∈ (outlineForest text).allBlocks,
        (block.heading.kind = .scenario ∨
          ∃ raw, (block.heading.line, raw) ∈ numberedLines text.toList ∧
            closesAtOnce raw = true) →
        block.children = []) ∧
      ∀ parent ∈ (outlineForest text).allBlocks, ∀ child ∈ parent.children,
        Holds (numberedLines text.toList) parent.heading child.heading := by
  have ordered := pairwise_numberedLines text.toList
  have follows := Outline.Follows.of_foldl ordered
  refine ⟨fun seen before => ?_, follows.listed, fun block member closed => ?_,
    follows.nested⟩
  · have descending : Outline.Descending _ :=
      (Outline.Follows.of_foldl (ordered.sublist before.sublist)).descending
    refine ⟨_, Levels.foldlM_takeRawLine?_of .start seen, rfl,
      ?_, ?_, ?_⟩
    · simp [Levels.of, Outline.openHeadings]
    · exact List.pairwise_map.mpr descending
    · simp [Levels.of]
  · refine List.eq_nil_iff_forall_not_mem.mpr fun child within => ?_
    have holds := follows.nested block member child within
    rcases holds.opened with ⟨raw, present, opens⟩
    rcases closed with isScenario | ⟨raw', present', closes⟩
    · exact absurd (isScenario.symm.trans holds.isGroup) (by decide)
    · rw [eq_of_mem_of_mem ordered present' present, opens] at closes
      cases closes

end SpecAudit.Spec

import SpecAudit.Proofs.Spec.OutlineSteps
import SpecAudit.Proofs.Spec.TitledHeading

/-!
# Balanced documents

A document is balanced when its groups, its scenarios and the constructs in
them are closed in the order in which they were opened, and when everything
inside a group is indented deeper than the group.  How the `end` of a group is
indented does not matter beyond that.  The main theorem says that the outline
of a balanced document is its nesting, and that every block has the title it is
written with as its subject.
-/

namespace SpecAudit.Spec

open SpecAudit.Text

/--
Lines, numbered from the given number on, that are balanced, with the blocks
that they nest.  A line is looked at without the blanks on either side, and
indentation is asked for where the line is not blank.
-/
inductive Balanced : Nat → List (List Char) → Forest → Prop where
  | nil {number : Nat} : Balanced number [] []
  /-- A blank line. -/
  | blank {number : Nat} {raw : List Char} {lines : List (List Char)}
      {forest : Forest}
      (empty : trim raw = [])
      (rest : Balanced (number + 1) lines forest) :
      Balanced number (raw :: lines) forest
  /-- A line that declares, opens and closes nothing. -/
  | neutral {number : Nat} {raw : List Char} {lines : List (List Char)}
      {forest : Forest}
      (undeclared : declaredKind? (trim raw) = none)
      (notEnd : isEnd (trim raw) = false)
      (opensNothing : opensConstruct (trim raw) = false)
      (rest : Balanced (number + 1) lines forest) :
      Balanced number (raw :: lines) forest
  /-- A construct that is no block, what it holds, and its `end`. -/
  | construct {number : Nat} {raw last : List Char}
      {inside lines : List (List Char)} {inner forest : Forest}
      (undeclared : declaredKind? (trim raw) = none)
      (notEnd : isEnd (trim raw) = false)
      (opens : opensConstruct (trim raw) = true)
      (body : Balanced (number + 1) inside inner)
      (closes : trim last = endWord)
      (rest : Balanced (number + inside.length + 2) lines forest) :
      Balanced number (raw :: (inside ++ last :: lines)) (inner ++ forest)
  /-- A scenario, what it holds, which declares no block, and its `end`. -/
  | scenario {number : Nat} {raw last : List Char}
      {inside lines : List (List Char)} {inner forest : Forest}
      (heading : TitledHeading)
      (isScenario : heading.kind = .scenario)
      (declared : trim raw = heading.opening)
      (body : Balanced (number + 1) inside inner)
      (undeclared : ∀ line ∈ inside, declaredKind? (trim line) = none)
      (closes : trim last = endWord)
      (rest : Balanced (number + inside.length + 2) lines forest) :
      Balanced number (raw :: (inside ++ last :: lines))
        (.block (heading.placed (indentOf raw) number) [] :: forest)
  /-- A group, what it holds, which is indented deeper, and its `end`. -/
  | group {number : Nat} {raw last : List Char}
      {inside lines : List (List Char)} {children forest : Forest}
      (heading : TitledHeading)
      (isGroup : heading.kind = .group)
      (declared : trim raw = heading.opening)
      (body : Balanced (number + 1) inside children)
      (deeper : ∀ line ∈ inside, trim line ≠ [] →
        indentOf raw < indentOf line)
      (closes : trim last = endWord)
      (rest : Balanced (number + inside.length + 2) lines forest) :
      Balanced number (raw :: (inside ++ last :: lines))
        (.block (heading.placed (indentOf raw) number) children :: forest)

theorem Balanced.forest_eq_nil {number : Nat} {lines : List (List Char)}
    {forest : Forest} (balanced : Balanced number lines forest)
    (undeclared : ∀ line ∈ lines, declaredKind? (trim line) = none) :
    forest = [] := by
  induction balanced with
  | nil => rfl
  | blank _ _ induction =>
      exact induction fun line member =>
        undeclared line (List.mem_cons_of_mem _ member)
  | neutral _ _ _ _ induction =>
      exact induction fun line member =>
        undeclared line (List.mem_cons_of_mem _ member)
  | construct _ _ _ _ _ _ bodyInduction restInduction =>
      have inner := bodyInduction fun line member =>
        undeclared line (by simp [member])
      have after := restInduction fun line member =>
        undeclared line (by simp [member])
      rw [inner, after, List.append_nil]
  | scenario heading _ declared =>
      have found := undeclared _ List.mem_cons_self
      rw [declared, TitledHeading.opening,
        heading.declaredKind?_append] at found
      cases found
  | group heading _ declared =>
      have found := undeclared _ List.mem_cons_self
      rw [declared, TitledHeading.opening,
        heading.declaredKind?_append] at found
      cases found

/-! ## What single lines do -/

namespace Outline

variable {outline : Outline} {raw : List Char} {number : Nat}

/-- A line that declares, opens and closes nothing changes nothing. -/
theorem takeRawLine_neutral
    (inside : trim raw ≠ [] → outline.Encloses (indentOf raw))
    (undeclared : declaredKind? (trim raw) = none)
    (notEnd : isEnd (trim raw) = false)
    (opensNothing : opensConstruct (trim raw) = false) :
    outline.takeRawLine (number, raw) = outline := by
  by_cases empty : trim raw = []
  · simp [takeRawLine, empty]
  · rw [takeRawLine_of_ne_nil empty, takeLine, notEnd, Bool.and_false]
    simp [dedent_of_encloses (inside empty), undeclared, opensNothing]

theorem takeRawLine_construct
    (inside : trim raw ≠ [] → outline.Encloses (indentOf raw))
    (undeclared : declaredKind? (trim raw) = none)
    (notEnd : isEnd (trim raw) = false)
    (opens : opensConstruct (trim raw) = true) :
    outline.takeRawLine (number, raw) = outline.await := by
  have inked : trim raw ≠ [] := by
    intro empty
    rw [empty] at opens
    cases opens
  rw [takeRawLine_of_ne_nil inked, takeLine, notEnd, Bool.and_false]
  simp [dedent_of_encloses (inside inked), undeclared, opens]

theorem opening_ne_nil (heading : TitledHeading) : heading.opening ≠ [] := by
  simp [TitledHeading.opening]

/-- A scenario is declared, and its block waits for its `end`. -/
theorem takeRawLine_scenario (heading : TitledHeading)
    (inside : trim raw ≠ [] → outline.Encloses (indentOf raw))
    (isScenario : heading.kind = .scenario)
    (declared : trim raw = heading.opening) :
    outline.takeRawLine (number, raw) =
      (outline.declare
        [.block (heading.placed (indentOf raw) number) []]).await := by
  have inked : trim raw ≠ [] := declared ▸ opening_ne_nil heading
  have kind : declaredKind? heading.opening = some .scenario := by
    rw [TitledHeading.opening, heading.declaredKind?_append, isScenario]
  rw [takeRawLine_of_ne_nil inked, takeLine, declared, heading.isEnd_opening,
    Bool.and_false]
  simp [dedent_of_encloses (inside inked), kind, takeDeclaration,
    heading.splitHeading_opening, heading.beforeDo?_opening,
    TitledHeading.placed, isScenario]

theorem takeRawLine_group (heading : TitledHeading)
    (inside : trim raw ≠ [] → outline.Encloses (indentOf raw))
    (isGroup : heading.kind = .group)
    (declared : trim raw = heading.opening) :
    outline.takeRawLine (number, raw) =
      outline.enter (heading.placed (indentOf raw) number) := by
  have inked : trim raw ≠ [] := declared ▸ opening_ne_nil heading
  have kind : declaredKind? heading.opening = some .group := by
    rw [TitledHeading.opening, heading.declaredKind?_append, isGroup]
  rw [takeRawLine_of_ne_nil inked, takeLine, declared, heading.isEnd_opening,
    Bool.and_false]
  simp [dedent_of_encloses (inside inked), kind, takeDeclaration,
    heading.splitHeading_opening, TitledHeading.placed, isGroup, enter]

theorem takeRawLine_end (closes : trim raw = endWord) :
    outline.takeRawLine (number, raw) =
      outline.takeLine number (indentOf raw) endWord := by
  have inked : trim raw ≠ [] := by
    rw [closes]
    exact List.cons_ne_nil _ _
  rw [takeRawLine_of_ne_nil inked, closes]

end Outline

/-! ## What balanced lines do -/

namespace Outline

/-- Every line that is not blank stands inside every open group. -/
def EnclosesAll (outline : Outline) (lines : List (List Char)) : Prop :=
  ∀ raw ∈ lines, trim raw ≠ [] → outline.Encloses (indentOf raw)

namespace EnclosesAll

variable {outline : Outline} {lines fewer : List (List Char)}

theorem of_subset (inside : outline.EnclosesAll lines)
    (subset : fewer ⊆ lines) : outline.EnclosesAll fewer :=
  fun raw member => inside raw (subset member)

theorem declare (inside : outline.EnclosesAll lines) (blocks : List Block) :
    (outline.declare blocks).EnclosesAll lines :=
  fun raw member inked => encloses_declare.mpr (inside raw member inked)

theorem await (inside : outline.EnclosesAll lines) :
    outline.await.EnclosesAll lines :=
  fun raw member inked => encloses_await.mpr (inside raw member inked)

theorem encloses_end (inside : outline.EnclosesAll lines) {last : List Char}
    (member : last ∈ lines) (closes : trim last = endWord) :
    outline.Encloses (indentOf last) := by
  apply inside last member
  rw [closes]
  exact List.cons_ne_nil _ _

end EnclosesAll

/--
A line that opens something, what it holds, and the `end` that closes it: the
run goes on after the `end` from the outline that the `end` leaves.
-/
theorem takeLines_bracketed {outline opened filled closed : Outline}
    {number : Nat} {raw last : List Char} {within lines : List (List Char)}
    (opens : outline.takeRawLine (number, raw) = opened)
    (body : opened.takeLines (number + 1) within = filled)
    (closes : trim last = endWord)
    (closing : ∀ number,
      filled.takeLine number (indentOf last) endWord = closed) :
    outline.takeLines number (raw :: (within ++ last :: lines)) =
      closed.takeLines (number + within.length + 2) lines := by
  have numbered : number + 1 + within.length + 1 =
      number + within.length + 2 := by
    omega
  rw [takeLines, opens, takeLines_append, body, takeLines,
    takeRawLine_end closes, closing, numbered]

end Outline

open Outline in
/--
Balanced lines inside every open group declare the blocks that they nest and
leave everything else as it was.
-/
theorem Balanced.takeLines_eq_declare {number : Nat}
    {lines : List (List Char)} {forest : Forest}
    (balanced : Balanced number lines forest) :
    ∀ outline : Outline, outline.EnclosesAll lines →
      outline.takeLines number lines = outline.declare forest.reverse := by
  induction balanced with
  | nil =>
      intro outline _
      rw [List.reverse_nil, declare_nil]
      rfl
  | blank empty _ induction =>
      intro outline inside
      rw [takeLines, takeRawLine_of_eq_nil empty]
      exact induction outline (inside.of_subset (List.subset_cons_self _ _))
  | neutral undeclared notEnd opensNothing _ induction =>
      intro outline inside
      rw [takeLines, takeRawLine_neutral (inside _ List.mem_cons_self)
        undeclared notEnd opensNothing]
      exact induction outline (inside.of_subset (List.subset_cons_self _ _))
  | @construct number raw last within lines inner forest undeclared notEnd
      opens _ closes _ bodyInduction restInduction =>
      intro outline inside
      have bodyInside : outline.await.EnclosesAll within :=
        (inside.of_subset (by simp)).await
      have lastInside : outline.Encloses (indentOf last) :=
        inside.encloses_end (by simp) closes
      have restInside : (outline.declare inner.reverse).EnclosesAll lines :=
        (inside.of_subset (fun _ _ => by simp_all)).declare _
      rw [takeLines_bracketed
          (takeRawLine_construct (inside _ List.mem_cons_self) undeclared
            notEnd opens)
          (bodyInduction _ bodyInside) closes
          (fun _ => by
            rw [await_declare, takeLine_end_await
              (encloses_declare.mpr lastInside)]),
        restInduction _ restInside, declare_declare, List.reverse_append]
  | @scenario number raw last within lines inner forest heading isScenario
      declared body undeclared closes _ bodyInduction restInduction =>
      intro outline inside
      have innerNil : inner = [] := body.forest_eq_nil undeclared
      have lastInside : outline.Encloses (indentOf last) :=
        inside.encloses_end (by simp) closes
      rw [takeLines_bracketed
          (takeRawLine_scenario heading (inside _ List.mem_cons_self)
            isScenario declared)
          (bodyInduction _
            ((inside.of_subset (by simp)).declare _).await) closes
          (fun _ => by
            rw [innerNil, List.reverse_nil, declare_nil, takeLine_end_await
              (encloses_declare.mpr lastInside)]),
        restInduction _
          ((inside.of_subset (fun _ _ => by simp_all)).declare _),
        declare_declare, List.reverse_cons]
  | @group number raw last within lines children forest heading isGroup
      declared _ deeper closes _ bodyInduction restInduction =>
      intro outline inside
      -- Only the new group counts inside it: it is the innermost one.
      have bodyInside :
          (outline.enter (heading.placed (indentOf raw) number)).EnclosesAll
            within :=
        fun line member inked =>
          encloses_enter.mpr (deeper line member inked)
      have lastInside : outline.Encloses (indentOf last) :=
        inside.encloses_end (by simp) closes
      rw [takeLines_bracketed
          (takeRawLine_group heading (inside _ List.mem_cons_self) isGroup
            declared)
          (bodyInduction _ bodyInside) closes
          (fun number => takeLine_end_enter lastInside number _),
        restInduction _
          ((inside.of_subset (fun _ _ => by simp_all)).declare _),
        declare_declare, List.reverse_reverse, List.reverse_cons]

/-! ## Titles -/

/-- A heading is written with a title, and that title is its subject. -/
def Heading.IsTitled (heading : Heading) : Prop :=
  ∃ (written : TitledHeading) (indent line : Nat),
    heading = written.placed indent line ∧
      heading.subject? = some (String.ofList written.title)

/-- Every block of a forest has the title it is written with as its subject. -/
def Titled (forest : Forest) : Prop :=
  ∀ block ∈ forest.allBlocks, block.heading.IsTitled

theorem titled_cons {heading : Heading} {children forest : List Block} :
    Titled (.block heading children :: forest) ↔
      heading.IsTitled ∧ Titled children ∧ Titled forest := by
  simp only [Titled, Forest.allBlocks, Block.allOf, Block.all,
    List.cons_append, List.forall_mem_cons, List.forall_mem_append,
    Block.heading]

theorem titled_append {left right : Forest} :
    Titled (left ++ right) ↔ Titled left ∧ Titled right := by
  simp only [Titled, Forest.allBlocks_append, List.forall_mem_append]

theorem isTitled_placed {heading : TitledHeading} {raw : List Char}
    (declared : trim raw = heading.opening) (oneLine : '\n' ∉ raw)
    (indent line : Nat) :
    (heading.placed indent line).IsTitled := by
  have written : '\n' ∉ heading.title := by
    intro member
    apply oneLine
    apply mem_of_mem_trim
    rw [declared]
    simp [TitledHeading.opening, TitledHeading.characters,
      TitledHeading.quoted, member]
  refine ⟨heading, indent, line, rfl, ?_⟩
  simp [Heading.subject?, TitledHeading.placed,
    heading.subject?_characters written]

theorem Balanced.titled {number : Nat} {lines : List (List Char)}
    {forest : Forest} (balanced : Balanced number lines forest)
    (oneLine : ∀ raw ∈ lines, '\n' ∉ raw) : Titled forest := by
  induction balanced with
  | nil =>
      intro block member
      cases member
  | blank _ _ induction =>
      exact induction fun raw member =>
        oneLine raw (List.mem_cons_of_mem _ member)
  | neutral _ _ _ _ induction =>
      exact induction fun raw member =>
        oneLine raw (List.mem_cons_of_mem _ member)
  | construct _ _ _ _ _ _ bodyInduction restInduction =>
      rw [titled_append]
      constructor
      · exact bodyInduction fun raw member => oneLine raw (by simp [member])
      · exact restInduction fun raw member => oneLine raw (by simp [member])
  | scenario heading _ declared _ _ _ _ _ restInduction =>
      rw [titled_cons]
      refine ⟨?_, ?_, ?_⟩
      · exact isTitled_placed declared (oneLine _ List.mem_cons_self) _ _
      · intro block member
        cases member
      · exact restInduction fun raw member => oneLine raw (by simp [member])
  | group heading _ declared _ _ _ _ bodyInduction restInduction =>
      rw [titled_cons]
      refine ⟨?_, ?_, ?_⟩
      · exact isTitled_placed declared (oneLine _ List.mem_cons_self) _ _
      · exact bodyInduction fun raw member => oneLine raw (by simp [member])
      · exact restInduction fun raw member => oneLine raw (by simp [member])

/--
The outline of a balanced document is its nesting, and every block has the
title that it is written with as its subject.
-/
theorem outlineForest_of_balanced {text : String} {forest : Forest}
    (balanced : Balanced 1 (lines text.toList) forest) :
    outlineForest text = forest ∧ Titled forest := by
  constructor
  · have inside : Outline.start.EnclosesAll (lines text.toList) :=
      fun raw _ _ => Outline.encloses_start (indentOf raw)
    rw [outlineForest_eq_takeLines,
      balanced.takeLines_eq_declare Outline.start inside,
      forest_declare_start, List.reverse_reverse]
  · apply balanced.titled
    intro raw member present
    have inside := not_isLineBoundary_of_mem_lines raw member '\n' present
    cases inside

/--
The construct ends to the right of where it opens, the inner group to the left
of its heading, and the titles look like a brace, an opening word and an `end`.
-/
def crookedDocument : String :=
  "context '\x7b' do\n  describe \"a do\" do\n    if x\n      end\n    it 'end' do\n    end\n end\nend"

theorem outlineForest_of_balanced_crooked :
    outlineForest crookedDocument =
      [.block ⟨"context '\x7b'", 0, 1, .group⟩
        [.block ⟨"describe \"a do\"", 2, 2, .group⟩
          [.block ⟨"it 'end'", 4, 5, .scenario⟩ []]]] := by
  let outer : TitledHeading :=
    ⟨false, "context", .group, '\'', ['\x7b'], rfl, .inl rfl, by decide,
      by decide⟩
  let inner : TitledHeading :=
    ⟨false, "describe", .group, '"', "a do".toList, rfl, .inr rfl, by decide,
      by decide⟩
  let leaf : TitledHeading :=
    ⟨false, "it", .scenario, '\'', "end".toList, rfl, .inl rfl, by decide,
      by decide⟩
  have scenarios : Balanced 5
      ("    it 'end' do".toList :: ([] ++ "    end".toList :: []))
      [.block (leaf.placed 4 5) []] :=
    .scenario leaf rfl (by decide) .nil (by simp) rfl .nil
  have constructs : Balanced 3
      ("    if x".toList :: ([] ++ "      end".toList ::
        ["    it 'end' do".toList, "    end".toList]))
      ([] ++ [.block (leaf.placed 4 5) []]) :=
    .construct rfl rfl rfl .nil rfl scenarios
  have groups : Balanced 2
      ("  describe \"a do\" do".toList ::
        (["    if x".toList, "      end".toList, "    it 'end' do".toList,
          "    end".toList] ++ " end".toList :: []))
      [.block (inner.placed 2 2) [.block (leaf.placed 4 5) []]] :=
    .group inner rfl (by decide) constructs (by decide) rfl .nil
  have document : Balanced 1
      ("context '\x7b' do".toList ::
        (["  describe \"a do\" do".toList, "    if x".toList,
          "      end".toList, "    it 'end' do".toList, "    end".toList,
          " end".toList] ++ "end".toList :: []))
      [.block (outer.placed 0 1)
        [.block (inner.placed 2 2) [.block (leaf.placed 4 5) []]]] :=
    .group outer rfl (by decide) groups (by decide) rfl .nil
  have cut : lines crookedDocument.toList =
      "context '\x7b' do".toList ::
        (["  describe \"a do\" do".toList, "    if x".toList,
          "      end".toList, "    it 'end' do".toList, "    end".toList,
          " end".toList] ++ "end".toList :: []) := by
    decide +kernel
  have outerWritten : outer.placed 0 1 =
      ⟨"context '\x7b'", 0, 1, .group⟩ := TitledHeading.placed_eq (by decide)
  have innerWritten : inner.placed 2 2 =
      ⟨"describe \"a do\"", 2, 2, .group⟩ := TitledHeading.placed_eq (by decide)
  have leafWritten : leaf.placed 4 5 = ⟨"it 'end'", 4, 5, .scenario⟩ :=
    TitledHeading.placed_eq (by decide)
  rw [← cut, outerWritten, innerWritten, leafWritten] at document
  exact (outlineForest_of_balanced document).1

end SpecAudit.Spec

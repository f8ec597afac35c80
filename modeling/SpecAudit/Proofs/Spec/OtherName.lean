import SpecAudit.Proofs.Spec.Insertion
import SpecAudit.Proofs.Spec.VerbPhrase

/-!
# Titles about another method

The pattern for a name ends where no word character follows, and a method name
may go on behind its identifier with a mark that is none.  So a scenario that
tests one method is taken for a test of every other method whose name stands at
the front of its name with such a mark behind it: a title about `save!` counts
for `save`.  Where identifiers are made of word characters, this is all that is
mistaken.
-/

namespace SpecAudit.Spec

open SpecAudit.Method (MethodKind)
open SpecAudit.Text

/-! ## Method names -/

/-- Whether a text is an identifier: letters, digits, underscores and characters
beyond ASCII, with no digit in front. -/
structure IsIdentifier (text : List Char) : Prop where
  nonempty : text ≠ []
  noDigit : text.head?.any Char.isDigit = false
  characters : ∀ character ∈ text,
    isAsciiWord character = true ∨ 0x80 ≤ character.toNat

instance (text : List Char) : Decidable (IsIdentifier text) :=
  decidable_of_iff
    (text ≠ [] ∧ text.head?.any Char.isDigit = false ∧
      text.all (fun character =>
        isAsciiWord character || decide (0x80 ≤ character.toNat)) = true)
    ⟨fun ⟨nonempty, noDigit, characters⟩ =>
      ⟨nonempty, noDigit, by simpa using characters⟩,
      fun ⟨nonempty, noDigit, characters⟩ =>
        ⟨nonempty, noDigit, by simpa using characters⟩⟩

/-- The marks that a method name may end with. -/
def nameEndings : List (List Char) :=
  [[], ['?'], ['!'], ['=']]

/-- Whether a text is a method name: an identifier, and at most one mark. -/
def IsMethodName (name : List Char) : Prop :=
  ∃ identifier, IsIdentifier identifier ∧
    ∃ ending ∈ nameEndings, name = identifier ++ ending

variable {name other : List Char}

/-- No mark of a kind stands in a method name. -/
theorem IsMethodName.unmarked (isName : IsMethodName name) :
    '#' ∉ name ∧ '.' ∉ name := by
  rcases isName with ⟨identifier, isIdentifier, ending, among, rfl⟩
  have apart (mark : Char)
      (noIdentifier : ¬ (isAsciiWord mark = true ∨ 0x80 ≤ mark.toNat))
      (noEnding : ∀ ending ∈ nameEndings, mark ∉ ending) :
      mark ∉ identifier ++ ending := by
    intro member
    rcases List.mem_append.mp member with inside | behind
    · exact noIdentifier (isIdentifier.characters mark inside)
    · exact noEnding ending among behind
  exact ⟨apart '#' (by decide) (by decide), apart '.' (by decide) (by decide)⟩

theorem isWord_of_isBlank {character : Char}
    (blank : isBlank character = true) : isWord character = false := by
  have among : character.toNat ∈ [0x85, 0xa0, 0x1680, 0x2028, 0x2029, 0x202f,
      0x205f, 0x3000] ++ List.range' 9 5 ++ List.range' 28 5 ++
        List.range' 0x2000 11 := by
    simp only [isBlank, Bool.or_eq_true, Bool.and_eq_true, decide_eq_true_eq,
      beq_iff_eq] at blank
    simp only [List.mem_append, List.mem_cons, List.mem_range'_1,
      List.not_mem_nil]
    omega
  rw [← Char.ofNat_toNat character]
  revert among
  generalize character.toNat = code
  revert code
  decide +kernel

/-! ## Titles -/

/-- Whether a verb and a method name are taken for a test of a name: the name
stands in front of the other one, behind blanks if there are any, and no word
character follows; or the other one holds a phrase that tests it. -/
def IsTakenFor (name other : List Char) : Prop :=
  (∃ blanks after, other = blanks ++ (name ++ after) ∧
    (∀ character ∈ blanks, isBlank character = true) ∧
    ∀ character ∈ after.head?, isWord character = false) ∨
  ∃ start stop, TestsAt name other start stop

section Title

variable {verb : List Char} (isVerb : IsVerb verb)

include isVerb

/-- No phrase starts behind a part of a verb. -/
theorem IsVerb.eq_nil_of_ends {before : List Char} (within : before ⊆ verb)
    (front : ∀ character ∈ before.getLast?, isWord character = false) :
    before = [] := by
  by_contra nonempty
  have last := List.getLast_mem nonempty
  have word := (isVerb.plain (within last)).2
  rw [front _ (List.getLast?_eq_some_getLast nonempty)] at word
  cases word

/-- What tests a name in a title that names a method behind a verb starts with
the verb, or stands in the name of the method. -/
theorem exists_testsAt_iff_isTakenFor (isOther : IsMethodName other) :
    (∃ start stop, TestsAt name (verb ++ ' ' :: other) start stop) ↔
      IsTakenFor name other := by
  have ends (before : List Char) :
      (∀ character ∈ (verb ++ ' ' :: before).getLast?,
          isWord character = false) ↔
        ∀ character ∈ before.getLast?, isWord character = false := by
    rw [List.getLast?_append, List.getLast?_cons]
    cases before.getLast? with
    | none => simp [show isWord ' ' = false by decide]
    | some last => simp
  constructor
  · rintro ⟨start, stop, before, lead, after, same, front, behind, -, -⟩
    rcases List.append_eq_append_iff.mp same with
      ⟨more, rfl, rest⟩ | ⟨more, written, rest⟩
    · right
      cases more with
      | nil =>
          rw [List.append_nil] at front
          exact absurd (isVerb.eq_nil_of_ends (List.Subset.refl _) front)
            isVerb.nonempty
      | cons first more =>
          rw [List.cons_append, List.cons_eq_cons] at rest
          rcases rest with ⟨rfl, rfl⟩
          exact ⟨_, _, more, lead, after, rfl, (ends more).mp front, behind,
            rfl, rfl⟩
    · left
      have within : before ⊆ verb := written ▸ List.subset_append_left _ _
      have none' := isVerb.eq_nil_of_ends within front
      rw [none', List.nil_append] at written
      rw [← written, lead.phrase_append] at rest
      have verbs : lead.verb = verb := by
        have spaced : startsBlank (' ' :: other) = true := rfl
        rw [lead.isVerb.eq_takeWhile (lead.startsBlank _), rest,
          ← isVerb.eq_takeWhile spaced]
      rw [verbs, List.append_cancel_left_eq] at rest
      rcases List.exists_cons_of_ne_nil lead.spaced with ⟨blank, blanks, spaces⟩
      rw [spaces, List.cons_append, List.cons_eq_cons] at rest
      have unmarked : lead.mark = [] := by
        rcases lead.isMark with mark | mark | mark
        · exact mark
        · exact absurd (by simp [← rest.2, mark]) isOther.unmarked.1
        · exact absurd (by simp [← rest.2, mark]) isOther.unmarked.2
      rw [unmarked, List.nil_append] at rest
      refine ⟨blanks, after, rest.2.symm, ?_, behind⟩
      intro character among
      exact lead.blank character (spaces ▸ List.mem_cons_of_mem _ among)
  · rintro (⟨blanks, after, rfl, blank, behind⟩ | ⟨start, stop, tests⟩)
    · refine ⟨_, _, [], ⟨verb, ' ' :: blanks, [], isVerb, by simp, ?_, .inl rfl⟩,
        after, ?_, by simp, behind, rfl, rfl⟩
      · exact List.forall_mem_cons.mpr ⟨by decide, blank⟩
      · simp [Lead.phrase]
    · rcases tests with ⟨before, lead, after, rfl, front, behind, -, -⟩
      exact ⟨_, _, verb ++ ' ' :: before, lead, after, by simp,
        (ends before).mpr front, behind, rfl, rfl⟩

end Title

/-! ## Names that are mistaken -/

/-- A name without blanks is taken for those that stand in front of it with a
character behind them that belongs to no word. -/
theorem isTakenFor_iff_of_inked (distinct : name ≠ other)
    (inked : ∀ character ∈ other, isBlank character = false) :
    IsTakenFor name other ↔
      ∃ mark rest, isWord mark = false ∧ other = name ++ mark :: rest := by
  constructor
  · rintro (⟨blanks, after, rfl, blank, behind⟩ | ⟨start, stop, tests⟩)
    · have none' : blanks = [] := by
        rw [List.eq_nil_iff_forall_not_mem]
        intro character among
        have ink := inked character (List.mem_append_left _ among)
        rw [blank character among] at ink
        cases ink
      subst none'
      cases after with
      | nil => simp at distinct
      | cons mark rest => exact ⟨mark, rest, behind mark rfl, rfl⟩
    · rcases tests with ⟨before, lead, after, rfl, -⟩
      rcases List.exists_cons_of_ne_nil lead.spaced with ⟨blank, blanks, spaces⟩
      have ink := inked blank (by simp [Lead.phrase, spaces])
      rw [lead.blank blank (spaces ▸ List.mem_cons_self)] at ink
      cases ink
  · rintro ⟨mark, rest, apart, rfl⟩
    exact .inl ⟨[], mark :: rest, rfl, by simp, by simpa using apart⟩

/-- A method whose identifier is made of word characters is taken for the
method that is named by the identifier alone, and for no other. -/
theorem isTakenFor_append_iff {identifier ending : List Char}
    (distinct : name ≠ identifier ++ ending)
    (words : ∀ character ∈ identifier, isWord character = true)
    (isEnding : ending ∈ nameEndings) :
    IsTakenFor name (identifier ++ ending) ↔
      ending ≠ [] ∧ name = identifier := by
  have plainEndings : nameEndings.all (fun ending =>
      decide (ending.length ≤ 1) && ending.all fun character =>
        !isBlank character && !isWord character) = true := by
    decide
  have plainEnding := List.all_eq_true.mp plainEndings ending isEnding
  simp only [Bool.and_eq_true, decide_eq_true_eq, List.all_eq_true,
    Bool.not_eq_true'] at plainEnding
  rcases plainEnding with ⟨short, plain⟩
  have inked : ∀ character ∈ identifier ++ ending,
      isBlank character = false := by
    intro character among
    rcases List.mem_append.mp among with inside | behind
    · by_contra blank
      have word := words character inside
      rw [isWord_of_isBlank (by simpa using blank)] at word
      cases word
    · exact (plain character behind).1
  rw [isTakenFor_iff_of_inked distinct inked]
  constructor
  · rintro ⟨mark, rest, apart, same⟩
    rcases List.append_eq_append_iff.mp same with
      ⟨more, front, behind⟩ | ⟨more, front, behind⟩
    · have fits := congrArg List.length behind
      rw [List.length_append, List.length_cons] at fits
      have none' : more = [] := List.length_eq_zero_iff.mp (by omega)
      subst none'
      rw [List.append_nil] at front
      exact ⟨by simp [behind], front⟩
    · cases more with
      | nil =>
          rw [List.append_nil] at front
          rw [List.nil_append] at behind
          exact ⟨by simp [← behind], front.symm⟩
      | cons first more =>
          rw [List.cons_append, List.cons_eq_cons] at behind
          have word := words mark (by simp [front, behind.1])
          rw [apart] at word
          cases word
  · rintro ⟨some', rfl⟩
    rcases List.exists_cons_of_ne_nil some' with ⟨mark, rest, rfl⟩
    exact ⟨mark, rest, (plain mark List.mem_cons_self).2, rfl⟩

/-! ## Scenarios in a document -/

/-- A scenario that is added to a document is seen by its title alone. -/
theorem Place.mentions_fill_scenario {kind : Option MethodKind} {name : String}
    {heading : Heading} (isScenario : heading.kind = .scenario)
    (place : Place) :
    (place.fill [.block heading []]).mentions kind name =
      ((place.fill []).mentions kind name || heading.tests name) := by
  have passed : heading.describes kind name = false := by
    rw [Heading.describes, isScenario]
    rfl
  have none' : Block.methodGroupsOf kind name [.block heading []] = [] := by
    rw [Block.methodGroupsOf, Block.methodGroups_of_not_describes passed]
    rfl
  have groups : ((place.fill [.block heading []]).methodGroups kind
      name).isEmpty = ((place.fill []).methodGroups kind name).isEmpty := by
    rcases place.methodGroups_fill_cases kind name with
      ⟨before, after, found | ⟨group, inner, found⟩⟩
    · rw [found, found, none']
      rfl
    · rw [found, found]
      cases before <;> rfl
  rw [Forest.mentions, Forest.mentions, groups, hasVerbScenario_fill,
    Forest.hasVerbScenario_cons]
  simp [Forest.hasVerbScenario, Forest.allBlocks, Block.allOf, Bool.or_assoc]

/--
A scenario that is titled by a verb and a method is taken for a test of another
name exactly if that name stands in front of the method's with a character
behind it that belongs to no word, blanks aside.  Where the identifier of the
method is made of word characters, it is taken for the method that is named by
the identifier alone, if its own name ends with a mark, and for no other.  In a
document such a scenario makes a name tested, and mentioned, in these cases and
in no other.
-/
theorem verbSpan?_otherMethod {name other verb : String}
    (distinct : name ≠ other) (isOther : IsMethodName other.toList)
    (isVerb : IsVerb verb.toList) :
    ((verbSpan? name (verb ++ " " ++ other)).isSome = true ↔
      IsTakenFor name.toList other.toList) ∧
    ((∀ character ∈ other.toList, isBlank character = false) →
      (IsTakenFor name.toList other.toList ↔
        ∃ mark rest, isWord mark = false ∧
          other.toList = name.toList ++ mark :: rest)) ∧
    (∀ identifier, ∀ ending ∈ nameEndings,
      other.toList = identifier ++ ending →
      (∀ character ∈ identifier, isWord character = true) →
      (IsTakenFor name.toList other.toList ↔
        ending ≠ [] ∧ name.toList = identifier)) ∧
    ∀ heading : Heading, heading.kind = .scenario →
      (Block.block heading []).title = verb ++ " " ++ other →
      ∀ place : Place,
        ((place.fill [.block heading []]).hasVerbScenario name = true ↔
          (place.fill []).hasVerbScenario name = true ∨
            IsTakenFor name.toList other.toList) ∧
        ∀ kind, (place.fill [.block heading []]).mentions kind name = true ↔
          (place.fill []).mentions kind name = true ∨
            IsTakenFor name.toList other.toList := by
  have characters : name.toList ≠ other.toList :=
    fun same => distinct (String.toList_injective same)
  have written : (verb ++ " " ++ other).toList =
      verb.toList ++ ' ' :: other.toList := by
    simp [String.toList_append]
  have taken : (verbSpan? name (verb ++ " " ++ other)).isSome = true ↔
      IsTakenFor name.toList other.toList := by
    rw [verbSpan?, isSome_findVerbPhrase?_iff, written]
    exact exists_testsAt_iff_isTakenFor isVerb isOther
  refine ⟨taken, isTakenFor_iff_of_inked characters, ?_, ?_⟩
  · intro identifier ending isEnding parts words
    rw [parts] at characters ⊢
    exact isTakenFor_append_iff characters words isEnding
  · intro heading isScenario title place
    have tests : heading.tests name = true ↔
        IsTakenFor name.toList other.toList := by
      rw [Heading.tests, isScenario, title, ← taken]
      rfl
    constructor
    · rw [Place.hasVerbScenario_fill, Bool.or_eq_true,
        Forest.hasVerbScenario_cons, ← tests]
      simp [Forest.hasVerbScenario, Forest.allBlocks, Block.allOf]
    · intro kind
      rw [Place.mentions_fill_scenario isScenario, Bool.or_eq_true, tests]

theorem verbSpan?_otherMethod_bang :
    "save" ≠ "save!" ∧ IsMethodName "save!".toList ∧ IsVerb "tests".toList ∧
      (verbSpan? "save" "tests save!").isSome = true ∧
      Forest.mentions
        [.block ⟨"describe Order", 0, 1, .group⟩
          [.block ⟨"it 'tests save!'", 2, 2, .scenario⟩ []]]
        (some .instanceMethod) "save" = true := by
  have isOther : IsMethodName "save!".toList :=
    ⟨['s', 'a', 'v', 'e'], by decide, ['!'], by decide, by decide⟩
  have isVerb : IsVerb "tests".toList := isVerb_iff.mpr (by decide)
  have taken : IsTakenFor "save".toList "save!".toList :=
    .inl ⟨[], ['!'], by decide, by simp, by simp; decide⟩
  rcases verbSpan?_otherMethod (by decide : "save" ≠ "save!") isOther isVerb
    with ⟨found, -, -, inDocument⟩
  refine ⟨by decide, isOther, isVerb, found.mpr taken, ?_⟩
  exact ((inDocument ⟨"it 'tests save!'", 2, 2, .scenario⟩ rfl (by decide +kernel)
    (.inside [] ⟨"describe Order", 0, 1, .group⟩ (.top [] []) [])).2 _).mpr
      (.inr taken)

/-- A mark at the end of a name belongs to no word, so that a test of a method
is found for the method that is named without the mark. -/
theorem not_forall_verbSpan?_eq_none :
    IsMethodName "save".toList ∧ IsMethodName "save!".toList ∧
      "save" ≠ "save!" ∧ IsVerb "tests".toList ∧
      verbSpan? "save" "tests save!" = some (0, 10) ∧
      ¬ ∀ name other verb : String, IsMethodName name.toList →
        IsMethodName other.toList → name ≠ other → IsVerb verb.toList →
          verbSpan? name (verb ++ " " ++ other) = none := by
  have isName : IsMethodName "save".toList :=
    ⟨['s', 'a', 'v', 'e'], by decide, [], by decide, by decide⟩
  have isOther : IsMethodName "save!".toList :=
    ⟨['s', 'a', 'v', 'e'], by decide, ['!'], by decide, by decide⟩
  have isVerb : IsVerb "tests".toList := isVerb_iff.mpr (by decide)
  have found : verbSpan? "save" "tests save!" = some (0, 10) := by
    decide +kernel
  refine ⟨isName, isOther, by decide, isVerb, found, fun never => ?_⟩
  have missed : verbSpan? "save" "tests save!" = none :=
    never "save" "save!" "tests" isName isOther (by decide) isVerb
  cases found.symm.trans missed

end SpecAudit.Spec

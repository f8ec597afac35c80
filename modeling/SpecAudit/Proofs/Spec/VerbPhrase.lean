import Mathlib.Data.Nat.Find
import SpecAudit.Proofs.Spec.VerbSpelling

/-!
# Phrases that test a method

A title tests a method where a phrase stands in it as words of its own: a verb
in any letter case, blanks, at most one mark, and the name.  For a name that
starts with neither a blank nor a mark, a phrase is told by where it starts:
the verb ends at the first blank, the blanks end where no blank follows, and a
mark that is there is taken.  The place that is found in a title is the first
one where a phrase starts, up to where that phrase ends.
-/

namespace SpecAudit.Spec

open SpecAudit.Text

/-- Whether a text is a mark that may stand before a name, or none. -/
def IsMark (mark : List Char) : Prop :=
  mark = [] ∨ mark = ['#'] ∨ mark = ['.']

/-- What stands before the name in a phrase that says the name is tested: a
verb, one blank or more, and at most one mark. -/
structure Lead where
  verb : List Char
  blanks : List Char
  mark : List Char
  isVerb : IsVerb verb
  spaced : blanks ≠ []
  blank : ∀ character ∈ blanks, isBlank character = true
  isMark : IsMark mark

/-- The phrase that says of a name that it is tested. -/
def Lead.phrase (lead : Lead) (name : List Char) : List Char :=
  lead.verb ++ (lead.blanks ++ (lead.mark ++ name))

/-- Whether a title tests a name by a phrase from one place to another.  No word
character stands directly before the phrase, and none behind it. -/
def TestsAt (name title : List Char) (start stop : Nat) : Prop :=
  ∃ (before : List Char) (lead : Lead) (after : List Char),
    title = before ++ (lead.phrase name ++ after) ∧
      (∀ character ∈ before.getLast?, isWord character = false) ∧
      (∀ character ∈ after.head?, isWord character = false) ∧
      start = before.length ∧ stop = start + (lead.phrase name).length

/-- Whether a name is not empty and starts with neither a blank nor a mark. -/
def StartsPlain (name : List Char) : Prop :=
  ∃ first rest, name = first :: rest ∧ isBlank first = false ∧
    first ≠ '#' ∧ first ≠ '.'

variable {name text : List Char} {length : Nat}

/-! ## The name -/

theorem startsOrEnds_not_isWord_iff :
    startsOrEnds (!isWord ·) text = true ↔
      ∀ character ∈ text.head?, isWord character = false := by
  cases text <;> simp [startsOrEnds]

theorem startsWithName_iff :
    startsWithName name text = true ↔
      ∃ after, text = name ++ after ∧
        ∀ character ∈ after.head?, isWord character = false := by
  unfold startsWithName
  split
  · rename_i rest cut
    rw [afterWord?_eq_some_iff] at cut
    rw [startsOrEnds_not_isWord_iff]
    constructor
    · intro apart
      exact ⟨rest, cut, apart⟩
    · rintro ⟨after, same, apart⟩
      rw [cut, List.append_cancel_left_eq] at same
      rwa [same]
  · rename_i none
    refine iff_of_false Bool.false_ne_true ?_
    rintro ⟨after, same, -⟩
    rw [afterWord?_eq_some_iff.mpr same] at none
    cases none

/-- Whether a text starts with a name behind at most one mark, both of a length
together, and no word character follows. -/
def HoldsName (name text : List Char) (length : Nat) : Prop :=
  ∃ mark after : List Char, IsMark mark ∧
    text = mark ++ (name ++ after) ∧
    (∀ character ∈ after.head?, isWord character = false) ∧
    mark.length + name.length = length

theorem HoldsName.of_markedNameLength?
    (found : markedNameLength? name text = some length) :
    HoldsName name text length := by
  have bare : (if startsWithName name text then some name.length else none) =
      some length → HoldsName name text length := by
    intro found
    split at found
    · rename_i starts
      cases found
      rcases startsWithName_iff.mp starts with ⟨after, same, apart⟩
      exact ⟨[], after, .inl rfl, same, apart, Nat.zero_add _⟩
    · cases found
  cases text with
  | nil => exact bare found
  | cons first rest =>
      simp only [markedNameLength?] at found
      split at found
      · rename_i marked
        rw [Bool.and_eq_true, Bool.or_eq_true, beq_iff_eq, beq_iff_eq]
          at marked
        cases found
        rcases startsWithName_iff.mp marked.2 with ⟨after, rfl, apart⟩
        have isMark : IsMark [first] := .inr (by simpa using marked.1)
        exact ⟨[first], after, isMark, rfl, apart, Nat.add_comm _ _⟩
      · exact bare found

theorem HoldsName.isSome_markedNameLength?
    (holds : HoldsName name text length) :
    (markedNameLength? name text).isSome = true := by
  rcases holds with ⟨mark, after, isMark, rfl, apart, -⟩
  have starts : startsWithName name (name ++ after) = true :=
    startsWithName_iff.mpr ⟨after, rfl, apart⟩
  rcases isMark with rfl | rfl | rfl
  · rw [List.nil_append]
    unfold markedNameLength?
    dsimp only
    rw [if_pos starts]
    split
    · split <;> rfl
    · rfl
  · simp [markedNameLength?, starts]
  · simp [markedNameLength?, starts]

/-! ## Blanks before the name -/

/-- Whether a text starts with one blank or more, and then a name behind at most
one mark, all of a length together. -/
def HoldsSpacedName (name text : List Char) (length : Nat) : Prop :=
  ∃ blanks rest within, blanks ≠ [] ∧
    (∀ character ∈ blanks, isBlank character = true) ∧
    text = blanks ++ rest ∧ HoldsName name rest within ∧
    blanks.length + within = length

theorem holdsSpacedName_cons_iff {character : Char} {rest : List Char} :
    HoldsSpacedName name (character :: rest) length ↔
      isBlank character = true ∧ ∃ within,
        (HoldsSpacedName name rest within ∨ HoldsName name rest within) ∧
          within + 1 = length := by
  constructor
  · rintro ⟨blanks, behind, within, spaced, blank, same, holds, rfl⟩
    rcases List.exists_cons_of_ne_nil spaced with ⟨first, others, rfl⟩
    rw [List.cons_append, List.cons_eq_cons] at same
    rcases same with ⟨rfl, rfl⟩
    rcases List.forall_mem_cons.mp blank with ⟨here, blank⟩
    refine ⟨here, others.length + within, ?_, ?_⟩
    · by_cases last : others = []
      · right
        rw [last, List.nil_append, List.length_nil, Nat.zero_add]
        exact holds
      · exact .inl ⟨others, behind, within, last, blank, rfl, holds, rfl⟩
    · rw [List.length_cons]
      omega
  · rintro ⟨here, within, spaced | holds, rfl⟩
    · rcases spaced with ⟨blanks, behind, inner, -, blank, rfl, holds, rfl⟩
      refine ⟨character :: blanks, behind, inner, List.cons_ne_nil _ _,
        List.forall_mem_cons.mpr ⟨here, blank⟩, rfl, holds, ?_⟩
      rw [List.length_cons]
      omega
    · exact ⟨[character], rest, within, List.cons_ne_nil _ _,
        List.forall_mem_singleton.mpr here, rfl, holds, Nat.add_comm _ _⟩

theorem HoldsSpacedName.of_spacedNameLength?
    (found : spacedNameLength? name text = some length) :
    HoldsSpacedName name text length := by
  induction text generalizing length with
  | nil => cases found
  | cons character rest induction =>
      rw [spacedNameLength?] at found
      split at found
      · rename_i blank
        rcases Option.map_eq_some_iff.mp found with ⟨within, behind, rfl⟩
        refine holdsSpacedName_cons_iff.mpr ⟨blank, within, ?_, rfl⟩
        cases more : spacedNameLength? name rest with
        | some _ =>
            rw [more] at behind
            cases behind
            exact .inl (induction more)
        | none =>
            rw [more] at behind
            exact .inr (HoldsName.of_markedNameLength? behind)
      · cases found

theorem HoldsSpacedName.isSome_spacedNameLength?
    (holds : HoldsSpacedName name text length) :
    (spacedNameLength? name text).isSome = true := by
  induction text generalizing length with
  | nil =>
      rcases holds with ⟨blanks, rest, within, spaced, -, same, -⟩
      exact absurd (List.append_eq_nil_iff.mp same.symm).1 spaced
  | cons character rest induction =>
      rcases holdsSpacedName_cons_iff.mp holds with ⟨blank, within, found, -⟩
      rw [spacedNameLength?, if_pos blank, Option.isSome_map]
      cases more : spacedNameLength? name rest with
      | some found => rfl
      | none =>
          rcases found with spaced | here
          · exact absurd (induction spaced) (by rw [more]; nofun)
          · exact here.isSome_markedNameLength?

/-! ## The phrase -/

/-- Whether a text starts with a phrase of a length that says that a name is
tested. -/
def StartsPhrase (name text : List Char) (length : Nat) : Prop :=
  ∃ (lead : Lead) (after : List Char), text = lead.phrase name ++ after ∧
    (∀ character ∈ after.head?, isWord character = false) ∧
    (lead.phrase name).length = length

theorem StartsPhrase.of_verbPhraseLength?
    (found : verbPhraseLength? name text = some length) :
    StartsPhrase name text length := by
  simp only [verbPhraseLength?, Option.bind_eq_bind, Option.bind_eq_some_iff,
    Option.pure_def, Option.some.injEq] at found
  rcases found with ⟨verb, found, tail, spacedName, rfl⟩
  rcases verbLength?_eq_some_iff.mp found with
    ⟨written, rest, rfl, isVerb, -, rfl⟩
  rw [List.drop_left] at spacedName
  rcases HoldsSpacedName.of_spacedNameLength? spacedName with
    ⟨blanks, behind, within, spaced, blank, rfl, holds, rfl⟩
  rcases holds with ⟨mark, after, isMark, rfl, apart, rfl⟩
  refine ⟨⟨written, blanks, mark, isVerb, spaced, blank, isMark⟩, after, ?_,
    apart, ?_⟩
  · simp [Lead.phrase]
  · simp [Lead.phrase]

theorem Lead.phrase_append (lead : Lead) (after : List Char) :
    lead.phrase name ++ after =
      lead.verb ++ (lead.blanks ++ (lead.mark ++ (name ++ after))) := by
  simp [phrase]

theorem Lead.startsBlank (lead : Lead) (rest : List Char) :
    startsBlank (lead.blanks ++ rest) = true := by
  rcases List.exists_cons_of_ne_nil lead.spaced with ⟨first, others, same⟩
  rw [same]
  exact lead.blank first (by rw [same]; exact List.mem_cons_self)

theorem StartsPhrase.isSome_verbPhraseLength?
    (starts : StartsPhrase name text length) :
    (verbPhraseLength? name text).isSome = true := by
  rcases starts with ⟨lead, after, rfl, apart, -⟩
  have verb : verbLength? (lead.phrase name ++ after) =
      some lead.verb.length :=
    verbLength?_eq_some_iff.mpr
      ⟨lead.verb, _, lead.phrase_append after, lead.isVerb,
        lead.startsBlank _, rfl⟩
  have spacedName : HoldsSpacedName name
      (lead.blanks ++ (lead.mark ++ (name ++ after)))
      (lead.blanks.length + (lead.mark.length + name.length)) :=
    ⟨lead.blanks, _, _, lead.spaced, lead.blank, rfl,
      ⟨lead.mark, after, lead.isMark, rfl, apart, rfl⟩, rfl⟩
  rcases Option.isSome_iff_exists.mp spacedName.isSome_spacedNameLength? with
    ⟨tail, found⟩
  rw [verbPhraseLength?, verb, lead.phrase_append, Option.bind_eq_bind,
    Option.bind_some, List.drop_left, found]
  rfl

/-- Where a name starts with neither a blank nor a mark, a text tells what its
phrase starts with. -/
theorem Lead.length_phrase_eq (plain : StartsPlain name) {lead other : Lead}
    {after after' : List Char}
    (same : lead.phrase name ++ after = other.phrase name ++ after') :
    (lead.phrase name).length = (other.phrase name).length := by
  rw [lead.phrase_append, other.phrase_append] at same
  have verbs : lead.verb = other.verb := by
    rw [lead.isVerb.eq_takeWhile (lead.startsBlank _), same,
      ← other.isVerb.eq_takeWhile (other.startsBlank _)]
  rw [verbs, List.append_cancel_left_eq] at same
  rcases plain with ⟨first, rest, rfl, notBlank, notHash, notDot⟩
  have blanks_eq (lead : Lead) (after : List Char) :
      lead.blanks = (lead.blanks ++
        (lead.mark ++ (first :: rest ++ after))).takeWhile isBlank := by
    rw [List.takeWhile_append_of_pos lead.blank]
    rcases lead.isMark with mark | mark | mark
    · simp [mark, notBlank]
    · simp [mark, show isBlank '#' = false by decide]
    · simp [mark, show isBlank '.' = false by decide]
  have mark_eq (lead : Lead) (after : List Char) :
      lead.mark = (lead.mark ++
        (first :: rest ++ after)).takeWhile (['#', '.'].contains ·) := by
    rcases lead.isMark with mark | mark | mark <;> simp [mark, notHash, notDot]
  have blanks : lead.blanks = other.blanks := by
    rw [blanks_eq lead after, same, ← blanks_eq other after']
  rw [blanks, List.append_cancel_left_eq] at same
  have marks : lead.mark = other.mark := by
    rw [mark_eq lead after, same, ← mark_eq other after']
  simp only [phrase, verbs, blanks, marks]

theorem verbPhraseLength?_eq_some_iff (plain : StartsPlain name) :
    verbPhraseLength? name text = some length ↔
      StartsPhrase name text length := by
  refine ⟨StartsPhrase.of_verbPhraseLength?, fun starts => ?_⟩
  rcases Option.isSome_iff_exists.mp starts.isSome_verbPhraseLength? with
    ⟨length', found⟩
  rcases StartsPhrase.of_verbPhraseLength? found with
    ⟨lead, after, same, -, rfl⟩
  rcases starts with ⟨lead', after', rfl, -, rfl⟩
  rw [found, Lead.length_phrase_eq plain same]

/-! ## The first phrase -/

/-- Whether a phrase of a length starts at a place of a text; `free` says whether
one may start at its front. -/
def StartsAt (name : List Char) (free : Bool) (text : List Char)
    (place length : Nat) : Prop :=
  ((text.take place).getLast?.map (!isWord ·)).getD free = true ∧
    verbPhraseLength? name (text.drop place) = some length

theorem startsAt_zero_iff {free : Bool} :
    StartsAt name free text 0 length ↔
      free = true ∧ verbPhraseLength? name text = some length :=
  Iff.rfl

theorem startsAt_succ_iff {free : Bool} {character : Char} {rest : List Char}
    {place : Nat} :
    StartsAt name free (character :: rest) (place + 1) length ↔
      StartsAt name (!isWord character) rest place length := by
  unfold StartsAt
  rw [List.take_succ_cons, List.drop_succ_cons, List.getLast?_cons]
  cases (rest.take place).getLast? <;> rfl

theorem verbPhraseLength?_nil : verbPhraseLength? name [] = none := by
  have none' : verbLength? [] = none := by decide
  rw [verbPhraseLength?, none']
  rfl

/-- The search stops at the first place where a phrase starts. -/
theorem findVerbPhrase?_eq_some_iff {position start stop : Nat} {free : Bool} :
    findVerbPhrase? name position free text = some (start, stop) ↔
      ∃ place length, start = position + place ∧ stop = start + length ∧
        StartsAt name free text place length ∧
        ∀ earlier < place, ∀ other,
          ¬ StartsAt name free text earlier other := by
  induction text generalizing position free with
  | nil =>
      refine iff_of_false nofun ?_
      rintro ⟨place, length, -, -, starts, -⟩
      rw [StartsAt, List.drop_nil, verbPhraseLength?_nil] at starts
      cases starts.2
  | cons character rest induction =>
      have here (length : Nat) :
          (if free then verbPhraseLength? name (character :: rest) else none) =
              some length ↔
            StartsAt name free (character :: rest) 0 length := by
        cases free <;> simp [startsAt_zero_iff]
      rw [findVerbPhrase?]
      split
      · rename_i length found
        constructor
        · intro same
          cases same
          exact ⟨0, length, rfl, rfl, (here length).mp found, by simp⟩
        · rintro ⟨place, length', rfl, rfl, starts, first⟩
          have front : place = 0 := by
            by_contra later
            exact first 0 (Nat.pos_of_ne_zero later) length
              ((here length).mp found)
          subst front
          rw [(here length').mpr starts] at found
          cases found
          rfl
      · rename_i none'
        have notHere (other : Nat) :
            ¬ StartsAt name free (character :: rest) 0 other := fun starts => by
          rw [(here other).mpr starts] at none'
          cases none'
        rw [induction]
        constructor
        · rintro ⟨place, length, rfl, rfl, starts, first⟩
          refine ⟨place + 1, length, by omega, rfl, startsAt_succ_iff.mpr starts,
            ?_⟩
          intro earlier before other
          cases earlier with
          | zero => exact notHere other
          | succ earlier =>
              rw [startsAt_succ_iff]
              exact first earlier (Nat.lt_of_succ_lt_succ before) other
        · rintro ⟨place, length, rfl, rfl, starts, first⟩
          cases place with
          | zero => exact absurd starts (notHere length)
          | succ place =>
              refine ⟨place, length, by omega, by omega,
                startsAt_succ_iff.mp starts, ?_⟩
              intro earlier before other starts
              exact first (earlier + 1) (Nat.succ_lt_succ before) other
                (startsAt_succ_iff.mpr starts)

/-! ## Places in a title -/

section Title

variable {title : List Char} {start stop : Nat}

theorem testsAt_iff :
    TestsAt name title start stop ↔
      ((title.take start).getLast?.map (!isWord ·)).getD true = true ∧
        ∃ length, stop = start + length ∧
          StartsPhrase name (title.drop start) length := by
  have apart (before : List Char) :
      (before.getLast?.map (!isWord ·)).getD true = true ↔
        ∀ character ∈ before.getLast?, isWord character = false := by
    cases before.getLast? <;> simp
  rw [apart]
  constructor
  · rintro ⟨before, lead, after, rfl, front, behind, rfl, rfl⟩
    rw [List.take_left, List.drop_left]
    exact ⟨front, _, rfl, lead, after, rfl, behind, rfl⟩
  · rintro ⟨front, length, rfl, lead, after, same, behind, rfl⟩
    have within : start ≤ title.length := by
      by_contra beyond
      rw [List.drop_eq_nil_of_le (Nat.le_of_not_le beyond),
        lead.phrase_append] at same
      exact lead.isVerb.nonempty (List.append_eq_nil_iff.mp same.symm).1
    refine ⟨title.take start, lead, after, ?_, front, behind, ?_, rfl⟩
    · rw [← same, List.take_append_drop]
    · rw [List.length_take_of_le within]

/-- The place that is found is the first one where the title tests the name. -/
theorem findVerbPhrase?_eq_some_iff_testsAt (plain : StartsPlain name) :
    findVerbPhrase? name 0 true title = some (start, stop) ↔
      TestsAt name title start stop ∧
        ∀ earlier other, TestsAt name title earlier other →
          start ≤ earlier := by
  have tests (start stop : Nat) : TestsAt name title start stop ↔
      ∃ length, stop = start + length ∧
        StartsAt name true title start length := by
    simp only [testsAt_iff, StartsAt, verbPhraseLength?_eq_some_iff plain]
    constructor
    · rintro ⟨front, length, same, starts⟩
      exact ⟨length, same, front, starts⟩
    · rintro ⟨length, same, front, starts⟩
      exact ⟨front, length, same, starts⟩
  simp only [findVerbPhrase?_eq_some_iff, tests, Nat.zero_add]
  constructor
  · rintro ⟨place, length, rfl, rfl, starts, first⟩
    refine ⟨⟨length, rfl, starts⟩, ?_⟩
    rintro earlier _ ⟨other, rfl, starts⟩
    by_contra before
    exact first earlier (Nat.lt_of_not_le before) other starts
  · rintro ⟨⟨length, rfl, starts⟩, first⟩
    refine ⟨start, length, rfl, rfl, starts, ?_⟩
    intro earlier before other starts
    exact absurd (first earlier _ ⟨other, rfl, starts⟩)
      (Nat.not_le_of_lt before)

/-- Some place is found exactly if the title tests the name at some place. -/
theorem isSome_findVerbPhrase?_iff :
    (findVerbPhrase? name 0 true title).isSome = true ↔
      ∃ start stop, TestsAt name title start stop := by
  constructor
  · intro found
    rcases Option.isSome_iff_exists.mp found with ⟨⟨start, stop⟩, found⟩
    rcases findVerbPhrase?_eq_some_iff.mp found with
      ⟨place, length, rfl, rfl, ⟨front, starts⟩, -⟩
    exact ⟨place, _, testsAt_iff.mpr
      ⟨front, length, rfl, StartsPhrase.of_verbPhraseLength? starts⟩⟩
  · rintro ⟨start, stop, tests⟩
    rcases testsAt_iff.mp tests with ⟨front, length, -, starts⟩
    have exists' : ∃ place length, StartsAt name true title place length :=
      ⟨start, _, front,
        Option.eq_some_of_isSome starts.isSome_verbPhraseLength?⟩
    classical
    rcases Nat.find_spec exists' with ⟨length, starts⟩
    have first : ∀ earlier < Nat.find exists', ∀ other,
        ¬ StartsAt name true title earlier other :=
      fun _ before other starts => Nat.find_min exists' before ⟨other, starts⟩
    rw [findVerbPhrase?_eq_some_iff.mpr ⟨_, length, rfl, rfl, starts, first⟩]
    rfl

end Title

/--
A title tests a name exactly if a phrase stands in it as words of its own: a
verb in any letter case, blanks, at most one mark, and the name.  The span that
is found starts at the first place where such a phrase starts, and ends right
behind its name.
-/
theorem verbSpan?_firstPhrase {name : String} (plain : StartsPlain name.toList)
    (title : String) :
    ((verbSpan? name title).isSome = true ↔
      ∃ start stop, TestsAt name.toList title.toList start stop) ∧
    ∀ start stop, verbSpan? name title = some (start, stop) ↔
      TestsAt name.toList title.toList start stop ∧
        ∀ earlier other, TestsAt name.toList title.toList earlier other →
          start ≤ earlier :=
  ⟨isSome_findVerbPhrase?_iff,
    fun _ _ => findVerbPhrase?_eq_some_iff_testsAt plain⟩

theorem verbSpan?_firstPhrase_longS :
    StartsPlain "save".toList ∧
      TestsAt "save".toList "pretest save, then TE\u017fTS  #save!".toList
        19 31 ∧
      ∀ earlier other,
        TestsAt "save".toList "pretest save, then TE\u017fTS  #save!".toList
          earlier other → 19 ≤ earlier := by
  have plain : StartsPlain "save".toList :=
    ⟨'s', ['a', 'v', 'e'], by decide, by decide, by decide, by decide⟩
  have found : verbSpan? "save" "pretest save, then TE\u017fTS  #save!" =
      some (19, 31) := by
    decide +kernel
  exact ⟨plain, ((verbSpan?_firstPhrase plain _).2 19 31).mp found⟩

end SpecAudit.Spec

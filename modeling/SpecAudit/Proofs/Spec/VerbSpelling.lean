import Mathlib.Data.List.Forall2
import SpecAudit.Proofs.Text.Search
import SpecAudit.Spec.Verb

/-!
# Verbs in any letter case

A letter of a verb may be written small or as a capital, and some letters as a
character beyond ASCII that goes for them.  A verb is found at the start of a
text exactly if a spelling of one of the eight words stands there and a blank
follows; the blank tells which word it is, since no spelling holds one.
-/

namespace SpecAudit.Spec

open SpecAudit.Text

/-! ## Letters -/

/-- Whether a character is a small letter of ASCII. -/
def IsSmall (letter : Char) : Prop :=
  97 ≤ letter.toNat ∧ letter.toNat ≤ 122

instance (letter : Char) : Decidable (IsSmall letter) :=
  inferInstanceAs (Decidable (_ ∧ _))

/-- The characters that a small letter may be written as: the letter and its
capital, the long s, the kelvin sign, and the dotless and the dotted i. -/
def spellings (letter : Char) : List Char :=
  letter :: letter.toUpper ::
    if letter = 's' then ['\u017f']
    else if letter = 'k' then ['\u212a']
    else if letter = 'i' then ['\u0131', '\u0130']
    else []

theorem toNat_toLower (character : Char) :
    character.toLower.toNat =
      if 65 ≤ character.toNat ∧ character.toNat ≤ 90 then
        character.toNat + 32
      else character.toNat := by
  by_cases capital : 65 ≤ character.toNat ∧ character.toNat ≤ 90
  · have within : 'A'.val ≤ character.val ∧ character.val ≤ 'Z'.val := capital
    have shifted : (character.val + ('a'.val - 'A'.val)).toNat =
        (character.toNat + 32) % 2 ^ 32 :=
      UInt32.toNat_add _ _
    have lower : character.toLower = ⟨_, _⟩ := dif_pos within
    rw [if_pos capital, lower]
    exact shifted.trans (Nat.mod_eq_of_lt (by omega))
  · have outside : ¬ ('A'.val ≤ character.val ∧ character.val ≤ 'Z'.val) :=
      capital
    have same : character.toLower = character := dif_neg outside
    rw [if_neg capital, same]

theorem toNat_toUpper {letter : Char} (small : IsSmall letter) :
    letter.toUpper.toNat = letter.toNat - 32 := by
  have within : 'a'.val ≤ letter.val ∧ letter.val ≤ 'z'.val := small
  have shifted : (letter.val + ('A'.val - 'a'.val)).toNat =
      (letter.toNat + (2 ^ 32 - 32)) % 2 ^ 32 :=
    UInt32.toNat_add _ _
  have upper : letter.toUpper = ⟨_, _⟩ := dif_pos within
  rw [upper]
  refine shifted.trans ?_
  unfold IsSmall at small
  omega

theorem toLower_eq_iff {letter : Char} (small : IsSmall letter)
    (character : Char) :
    character.toLower = letter ↔
      character = letter ∨ character = letter.toUpper := by
  rw [← Char.toNat_inj, ← Char.toNat_inj, ← Char.toNat_inj, toNat_toLower,
    toNat_toUpper small]
  unfold IsSmall at small
  split <;> omega

theorem foldCase_of_ascii {character : Char} (ascii : character.toNat < 128) :
    foldCase character = character.toLower := by
  have plain : character.toNat ≠ 0x17f ∧ character.toNat ≠ 0x212a ∧
      ¬ (character.toNat = 0x131 ∨ character.toNat = 0x130) := by
    omega
  rw [foldCase, if_neg plain.1, if_neg plain.2.1, if_neg plain.2.2]

/-- The characters that fold to a small letter are its spellings. -/
theorem foldCase_eq_iff {letter : Char} (small : IsSmall letter)
    (character : Char) :
    foldCase character = letter ↔ character ∈ spellings letter := by
  rw [spellings, List.mem_cons, List.mem_cons, ← or_assoc,
    ← toLower_eq_iff small]
  constructor
  · intro folded
    unfold foldCase at folded
    split at folded
    · rename_i longS
      right
      have same : character = '\u017f' := Char.toNat_inj.mp longS
      simp [← folded, same]
    · split at folded
      · rename_i kelvin
        right
        have same : character = '\u212a' := Char.toNat_inj.mp kelvin
        simp [← folded, same]
      · split at folded
        · rename_i dotted
          right
          have same : character = '\u0131' ∨ character = '\u0130' :=
            dotted.imp Char.toNat_inj.mp Char.toNat_inj.mp
          simp [← folded, same]
        · exact .inl folded
  · rintro (lower | beyond)
    · rw [foldCase_of_ascii, lower]
      have code := toNat_toLower character
      rw [lower] at code
      unfold IsSmall at small
      split at code <;> omega
    · split at beyond
      · rename_i same
        rw [List.mem_singleton.mp beyond, same]
        rfl
      · split at beyond
        · rename_i same
          rw [List.mem_singleton.mp beyond, same]
          rfl
        · split at beyond
          · rename_i same
            rcases List.mem_pair.mp beyond with rfl | rfl <;>
              · rw [same]
                rfl
          · cases beyond

/-! ## Words -/

/-- The words by which a title can say that it tests something. -/
def verbWords : List String :=
  ["test", "tests", "check", "checks", "verify", "verifies", "validate",
    "validates"]

/-- Whether a text is one of the words, in any letter case. -/
def IsVerb (written : List Char) : Prop :=
  ∃ word ∈ verbWords,
    List.Forall₂ (fun letter character => character ∈ spellings letter)
      word.toList written

theorem mem_verbs_iff {word : List Char} :
    word ∈ verbs ↔ ∃ verb ∈ verbWords, verb.toList = word := by
  have same : (verbWords.map String.toList).Perm verbs := by decide
  rw [← same.mem_iff, List.mem_map]

theorem isSmall_of_mem_verbs :
    ∀ word ∈ verbs, ∀ letter ∈ word, IsSmall letter := by
  have small : (verbs.all (·.all fun letter => decide (IsSmall letter))) =
      true := by
    decide
  simpa only [List.all_eq_true, decide_eq_true_eq] using small

theorem map_foldCase_eq_iff {word written : List Char}
    (small : ∀ letter ∈ word, IsSmall letter) :
    written.map foldCase = word ↔
      List.Forall₂ (fun letter character => character ∈ spellings letter)
        word written := by
  induction word generalizing written with
  | nil => simp
  | cons letter word induction =>
      rcases List.forall_mem_cons.mp small with ⟨first, small⟩
      cases written with
      | nil => simp
      | cons character written =>
          rw [List.map_cons, List.cons_eq_cons, foldCase_eq_iff first,
            induction small, List.forall₂_cons]

theorem isVerb_iff {written : List Char} :
    IsVerb written ↔ written.map foldCase ∈ verbs := by
  rw [mem_verbs_iff]
  refine exists_congr fun word => and_congr_right fun member => ?_
  have among : word.toList ∈ verbs := mem_verbs_iff.mpr ⟨word, member, rfl⟩
  rw [← map_foldCase_eq_iff (isSmall_of_mem_verbs _ among), eq_comm]

theorem plain_of_mem_verbs :
    ∀ word ∈ verbs, word ≠ [] ∧
      ∀ letter ∈ word, ∀ character ∈ spellings letter,
        isBlank character = false ∧ isWord character = true := by
  have plain : (verbs.all fun word => !word.isEmpty && word.all fun letter =>
      (spellings letter).all fun character =>
        !isBlank character && isWord character) = true := by
    decide +kernel
  simpa only [List.all_eq_true, Bool.and_eq_true, Bool.not_eq_true',
    List.isEmpty_eq_false_iff] using plain

section Verb

variable {written : List Char} (isVerb : IsVerb written)

include isVerb

theorem IsVerb.nonempty : written ≠ [] := by
  rintro rfl
  exact (plain_of_mem_verbs _ (isVerb_iff.mp isVerb)).1 rfl

/-- The characters of a verb are word characters, and none is blank. -/
theorem IsVerb.plain {character : Char} (among : character ∈ written) :
    isBlank character = false ∧ isWord character = true := by
  have member := isVerb_iff.mp isVerb
  have letter : foldCase character ∈ written.map foldCase :=
    List.mem_map_of_mem among
  have spelled : character ∈ spellings (foldCase character) :=
    (foldCase_eq_iff (isSmall_of_mem_verbs _ member _ letter) character).mp rfl
  exact (plain_of_mem_verbs _ member).2 _ letter _ spelled

/-- A verb with a blank behind it is all that stands before the first blank. -/
theorem IsVerb.eq_takeWhile {rest : List Char} (spaced : startsBlank rest) :
    written = (written ++ rest).takeWhile (!isBlank ·) := by
  have inked : ∀ character ∈ written, (!isBlank character) = true := by
    intro character among
    rw [(isVerb.plain among).1]
    rfl
  rw [List.takeWhile_append_of_pos inked]
  cases rest with
  | nil => cases spaced
  | cons blank rest =>
      have blank' : isBlank blank = true := spaced
      rw [List.takeWhile_cons, blank', Bool.not_true, if_neg Bool.false_ne_true,
        List.append_nil]

end Verb

/-! ## Finding a verb -/

/-- Whether a text starts with a word in any letter case, and a blank follows. -/
def startsVerb (text word : List Char) : Bool :=
  (text.take word.length).map foldCase == word
    && startsBlank (text.drop word.length)

theorem verbLength?_eq (text : List Char) :
    verbLength? text = (verbs.find? (startsVerb text)).map List.length := by
  unfold verbLength?
  dsimp only
  congr 2
  funext word
  unfold startsVerb
  cases text.drop word.length <;> rfl

theorem startsVerb_iff {word text : List Char} :
    startsVerb text word = true ↔
      ∃ written rest, text = written ++ rest ∧ written.map foldCase = word ∧
        startsBlank rest = true := by
  rw [startsVerb, Bool.and_eq_true, beq_iff_eq]
  constructor
  · rintro ⟨folded, spaced⟩
    exact ⟨_, _, (List.take_append_drop _ _).symm, folded, spaced⟩
  · rintro ⟨written, rest, rfl, rfl, spaced⟩
    simpa using spaced

/-- The length that is found is that of a verb at the start of the text with a
blank behind it. -/
theorem verbLength?_eq_some_iff {text : List Char} {length : Nat} :
    verbLength? text = some length ↔
      ∃ written rest, text = written ++ rest ∧ IsVerb written ∧
        startsBlank rest = true ∧ written.length = length := by
  rw [verbLength?_eq, Option.map_eq_some_iff]
  constructor
  · rintro ⟨word, found, rfl⟩
    have starts : startsVerb text word = true := List.find?_some found
    rcases startsVerb_iff.mp starts with ⟨written, rest, rfl, rfl, spaced⟩
    refine ⟨written, rest, rfl, ?_, spaced, (List.length_map _).symm⟩
    exact isVerb_iff.mpr (List.mem_of_find?_eq_some found)
  · rintro ⟨written, rest, rfl, isVerb, spaced, rfl⟩
    have starts : startsVerb (written ++ rest) (written.map foldCase) = true :=
      startsVerb_iff.mpr ⟨written, rest, rfl, rfl, spaced⟩
    cases found : verbs.find? (startsVerb (written ++ rest)) with
    | none =>
        have never :=
          List.find?_eq_none.mp found _ (isVerb_iff.mp isVerb)
        exact absurd starts never
    | some word =>
        -- Another word could be found first, but both end at the first blank.
        have starts' : startsVerb (written ++ rest) word = true :=
          List.find?_some found
        rcases startsVerb_iff.mp starts' with
          ⟨written', rest', same, rfl, spaced'⟩
        have isVerb' : IsVerb written' :=
          isVerb_iff.mpr (List.mem_of_find?_eq_some found)
        have alike : written' = written := by
          rw [isVerb'.eq_takeWhile spaced', ← same,
            ← isVerb.eq_takeWhile spaced]
        refine ⟨_, rfl, ?_⟩
        rw [List.length_map, alike]

end SpecAudit.Spec

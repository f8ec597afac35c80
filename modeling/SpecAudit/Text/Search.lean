import SpecAudit.Text.Blank

/-!
# Looking for words in a text

Small recognisers over lists of characters: a word at the start, a word at the end, and the first
place at which a condition on the rest of the text holds.
-/

namespace SpecAudit.Text

/-- What follows a word, if the text starts with that word. -/
def afterWord? : List Char → List Char → Option (List Char)
  | [], rest => some rest
  | _ :: _, [] => none
  | expected :: word, character :: rest =>
    if expected == character then afterWord? word rest else none

/-- A text starts with a word exactly when the word can be cut off its front. -/
theorem afterWord?_eq_some_iff {word text rest : List Char} :
    afterWord? word text = some rest ↔ text = word ++ rest := by
  induction word generalizing text with
  | nil => simp [afterWord?, eq_comm]
  | cons expected word induction =>
    cases text with
    | nil => simp [afterWord?]
    | cons character text =>
      by_cases same : expected = character
      · subst same
        simp [afterWord?, induction]
      · have different : ¬ character = expected := fun equal => same equal.symm
        simp [afterWord?, same, different]

/-- The first of several words that the text starts with, and what follows it. -/
def afterAnyWord? : List (List Char) → List Char → Option (List Char × List Char)
  | [], _ => none
  | word :: words, text =>
    match afterWord? word text with
    | some rest => some (word, rest)
    | none => afterAnyWord? words text

/-- The text up to the first place where a condition holds of the rest, if there is one. -/
def textBefore? (holds : List Char → Bool) : List Char → Option (List Char)
  | [] => none
  | character :: rest =>
    if holds (character :: rest) then some []
    else (textBefore? holds rest).map (character :: ·)

/-- Whether the text is empty or starts with a character that satisfies the condition. -/
def startsOrEnds (condition : Char → Bool) : List Char → Bool
  | [] => true
  | character :: _ => condition character

/-- What precedes a word, if the text ends with that word. -/
def beforeWord? (word text : List Char) : Option (List Char) :=
  (afterWord? word.reverse text.reverse).map List.reverse

/-- A text ends with a word exactly when the word can be cut off its end. -/
theorem beforeWord?_eq_some_iff {word text before : List Char} :
    beforeWord? word text = some before ↔ text = before ++ word := by
  simp only [beforeWord?, Option.map_eq_some_iff, afterWord?_eq_some_iff]
  constructor
  · rintro ⟨reversed, equal, rfl⟩
    simpa using congrArg List.reverse equal
  · rintro rfl
    exact ⟨before.reverse, by simp, by simp⟩

/-- Whether a text ends with a word that directly follows a character satisfying a condition. -/
def endsWithWordAfter (condition : Char → Bool) (word text : List Char) : Bool :=
  match afterWord? word.reverse text.reverse with
  | some (character :: _) => condition character
  | _ => false

end SpecAudit.Text

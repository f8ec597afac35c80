import SpecAudit.Proofs.Text.Search
import SpecAudit.Spec.Opener

/-!
# Where a line is cut at its opening word

A line that ends in the opening word, alone behind a blank, is cut exactly
there.  No earlier place can be mistaken for the opening word: what follows it
would have to be blank or a list of parameters, and it ends in a letter.  For
the same reason the line is not taken for one that closes its own block.
-/

namespace SpecAudit.Spec

open SpecAudit.Text

theorem isParameterList_append_singleton {character : Char}
    (notBlank : isBlank character = false) (notBar : character ≠ '|')
    (text : List Char) :
    isParameterList (text ++ [character]) = false := by
  have inked : isBlankText (text ++ [character]) = false := by
    simp [isBlankText, notBlank]
  rw [isParameterList, inked, Bool.false_or]
  split
  · next rest trimmed =>
      split
      · next bar tail dropped =>
          have isBar : bar = '|' := by
            have stops := List.head?_dropWhile_not (· != '|') rest
            simpa [dropped] using stops
          have suffix : bar :: tail <:+ text ++ [character] := by
            rw [← dropped]
            refine (List.dropWhile_suffix _).trans ?_
            refine (List.suffix_cons '|' rest).trans ?_
            rw [← trimmed]
            exact List.dropWhile_suffix _
          rcases suffix with ⟨front, equal⟩
          have last : (bar :: tail).getLast? = some character := by
            simpa using congrArg List.getLast? equal
          have present : character ∈ tail := by
            have member := List.mem_of_getLast? last
            rcases List.mem_cons.mp member with same | later
            · exact absurd (same.trans isBar) notBar
            · exact later
          rw [isBlankText, ← Bool.not_eq_true, List.all_eq_true]
          intro blank
          rw [blank character present] at notBlank
          cases notBlank
      · rfl
  · rfl

theorem afterDo_eq_some {text rest : List Char}
    (found : afterWord? doWord (trimLeft text) = some rest) :
    text = text.takeWhile isBlank ++ 'd' :: 'o' :: rest := by
  have cut := afterWord?_eq_some_iff.mp found
  calc
    text = text.takeWhile isBlank ++ trimLeft text :=
      (takeWhile_append_trimLeft text).symm
    _ = text.takeWhile isBlank ++ 'd' :: 'o' :: rest := by
      rw [cut]
      rfl

private theorem last_eq_of_cut (text : List Char) {start front : List Char}
    {character last : Char}
    (cut : text ++ [character] = start ++ 'd' :: 'o' :: (front ++ [last])) :
    last = character := by
  have regrouped : text ++ [character] =
      (start ++ 'd' :: 'o' :: front) ++ [last] := by
    simpa using cut
  exact (List.append_singleton_inj.mp regrouped).2.symm

/--
An opening word behind a blank at the end of a text is not found again in
front of the character before that blank.
-/
theorem isDoOpener_append_do {character : Char}
    (notBlank : isBlank character = false) (before : List Char) :
    isDoOpener (before ++ character :: [' ', 'd', 'o']) = false := by
  rw [isDoOpener]
  split
  · next rest found =>
      have cut := afterDo_eq_some found
      rcases List.eq_nil_or_concat rest with rfl | ⟨front, last, rfl⟩
      · have blanks : before ++ [character, ' '] =
            (before ++ character :: [' ', 'd', 'o']).takeWhile isBlank := by
          have ends : (before ++ [character, ' ']) ++ ['d', 'o'] =
              (before ++ character :: [' ', 'd', 'o']).takeWhile isBlank ++
                ['d', 'o'] := by
            simpa using cut
          exact List.append_cancel_right ends
        have member : character ∈
            (before ++ character :: [' ', 'd', 'o']).takeWhile isBlank := by
          rw [← blanks]
          simp
        rw [isBlank_of_mem_takeWhile member] at notBlank
        cases notBlank
      · have isO : last = 'o' := last_eq_of_cut (before ++ [character, ' ', 'd'])
          (by simpa using cut)
        rw [isO, List.concat_eq_append, isParameterList_append_singleton rfl
          (by decide), Bool.and_false]
  · rw [Bool.and_false]

/-- A line that ends in another letter than the closing word is open. -/
theorem isInlineDo_append_singleton {last : Char}
    (notBlank : isBlank last = false) (notEnd : last ≠ 'd')
    (text : List Char) :
    isInlineDo (text ++ [last]) = false := by
  rw [isInlineDo]
  split
  · next rest found =>
      have cut := afterDo_eq_some found
      have unclosed :
          endsWithWordAfter (!isWord ·) endWord (trimRight rest) = false := by
        rcases List.eq_nil_or_concat rest with rfl | ⟨front, final, rfl⟩
        · rfl
        · have same : final = last := last_eq_of_cut text (by simpa using cut)
          rw [same, List.concat_eq_append, trimRight_append_singleton notBlank]
          simp [endsWithWordAfter, endWord, afterWord?, notEnd.symm]
      rw [unclosed, Bool.and_false, Bool.and_false]
  · rw [Bool.and_false]

/-- A line that ends in neither the opening word nor a bar opens no block
there. -/
theorem isDoOpener_append_singleton {last : Char}
    (notBlank : isBlank last = false) (notWord : last ≠ 'o')
    (notBar : last ≠ '|') (text : List Char) :
    isDoOpener (text ++ [last]) = false := by
  rw [isDoOpener]
  split
  · next rest found =>
      have cut := afterDo_eq_some found
      rcases List.eq_nil_or_concat rest with rfl | ⟨front, final, rfl⟩
      · have same : last = 'o' := by
          simpa using congrArg List.getLast? cut
        exact absurd same notWord
      · have same : final = last := last_eq_of_cut text (by simpa using cut)
        rw [same, List.concat_eq_append,
          isParameterList_append_singleton notBlank notBar, Bool.and_false]
  · rw [Bool.and_false]

/-- What ends a text that ends in a character ends in that character. -/
theorem exists_front_of_suffix {before ending : List Char} {character : Char}
    (proper : ending ≠ []) (suffix : ending <:+ before ++ [character]) :
    ∃ front, ending = front ++ [character] := by
  rcases (List.eq_nil_or_concat ending).resolve_left proper with
    ⟨front, last, rfl⟩
  rcases suffix with ⟨skipped, equal⟩
  have same : last = character := by
    simpa using congrArg List.getLast? equal
  rw [same, List.concat_eq_append]
  exact ⟨front, rfl⟩

theorem beforeDo?_append {character : Char}
    (notBlank : isBlank character = false) (before : List Char) :
    beforeDo? (before ++ character :: [' ', 'd', 'o']) =
      some (before ++ [character]) := by
  have regrouped : before ++ character :: [' ', 'd', 'o'] =
      (before ++ [character]) ++ [' ', 'd', 'o'] := by
    simp
  rw [regrouped, beforeDo?]
  apply textBefore?_append rfl (List.cons_ne_nil _ _)
  intro ending proper suffix
  rcases exists_front_of_suffix proper suffix with ⟨front, rfl⟩
  rw [List.append_assoc]
  exact isDoOpener_append_do notBlank front

theorem beforeInlineDo?_append_singleton {last : Char}
    (notBlank : isBlank last = false) (notEnd : last ≠ 'd')
    (text : List Char) :
    beforeInlineDo? (text ++ [last]) = none := by
  apply textBefore?_eq_none
  intro ending proper suffix
  rcases exists_front_of_suffix proper suffix with ⟨front, rfl⟩
  exact isInlineDo_append_singleton notBlank notEnd front

theorem beforeDo?_append_singleton {last : Char}
    (notBlank : isBlank last = false) (notWord : last ≠ 'o')
    (notBar : last ≠ '|') (text : List Char) :
    beforeDo? (text ++ [last]) = none := by
  apply textBefore?_eq_none
  intro ending proper suffix
  rcases exists_front_of_suffix proper suffix with ⟨front, rfl⟩
  exact isDoOpener_append_singleton notBlank notWord notBar front

theorem splitHeading_append {character : Char}
    (notBlank : isBlank character = false) (before : List Char) :
    splitHeading (before ++ character :: [' ', 'd', 'o']) =
      (before ++ [character], false) := by
  have regrouped : before ++ character :: [' ', 'd', 'o'] =
      (before ++ character :: [' ', 'd']) ++ ['o'] := by
    simp
  have open' : beforeInlineDo? (before ++ character :: [' ', 'd', 'o']) =
      none := by
    rw [regrouped]
    exact beforeInlineDo?_append_singleton rfl (by decide) _
  simp only [splitHeading, open', beforeDo?_append notBlank before,
    trimRight_append_singleton notBlank]

end SpecAudit.Spec

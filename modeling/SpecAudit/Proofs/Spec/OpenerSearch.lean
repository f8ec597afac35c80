import SpecAudit.Proofs.Spec.OpeningWord

/-!
# Where an opener is found

A line is searched for what opens its block without regard to quotes.  An
opening word at the end of a line, alone or with parameters, is found where it
stands, whatever a quoted text in front of it says.  An opening word whose block
is closed on the line is found at the first such word behind a blank, and a
brace at the first one behind a blank or a closing parenthesis, and these may
stand inside the quotes.
-/

namespace SpecAudit.Spec

open SpecAudit.Text

/-- Whether the opening word stands somewhere in a title, as a word behind a
blank. -/
def HoldsOpeningWord (title : List Char) : Prop :=
  ∃ before blank after, title = before ++ blank :: (doWord ++ after) ∧
    isBlank blank = true ∧ startsOrEnds (!isWord ·) after = true

/-- Whether a brace stands somewhere in a title behind a blank or a closing
parenthesis. -/
def HoldsOpeningBrace (title : List Char) : Prop :=
  ∃ before character after, title = before ++ character :: '\x7b' :: after ∧
    (isBlank character = true ∨ character = ')')

/-! ## The opening word -/

/-- Whether a text starts with blanks and the opening word. -/
def startsDo (text : List Char) : Bool :=
  startsBlank text && match afterWord? doWord (trimLeft text) with
    | some rest => startsOrEnds (!isWord ·) rest
    | none => false

theorem isSome_textBefore?_startsDo {title : List Char} :
    (textBefore? startsDo title).isSome = true ↔ HoldsOpeningWord title := by
  rw [isSome_textBefore?_iff]
  constructor
  · rintro ⟨ending, -, ⟨before, rfl⟩, found⟩
    rw [startsDo, Bool.and_eq_true_iff] at found
    rcases found with ⟨starts, found⟩
    split at found
    · next rest cut =>
        have split := afterDo_eq_some cut
        rcases List.eq_nil_or_concat (ending.takeWhile isBlank) with
          none | ⟨blanks, blank, some⟩
        · rw [none, List.nil_append] at split
          rw [split] at starts
          cases starts
        · have member : blank ∈ ending.takeWhile isBlank := by simp [some]
          have blank' : isBlank blank = true := isBlank_of_mem_takeWhile member
          refine ⟨before ++ blanks, blank, rest, ?_, blank', found⟩
          rw [split, some]
          simp [doWord]
    · cases found
  · rintro ⟨before, blank, after, rfl, isBlank', apart⟩
    refine ⟨blank :: (doWord ++ after), List.cons_ne_nil _ _,
      List.suffix_append _ _, ?_⟩
    have cut : afterWord? doWord (trimLeft (blank :: (doWord ++ after))) =
        some after := by
      rw [trimLeft_cons_of_isBlank isBlank']
      exact afterWord?_eq_some_iff.mpr rfl
    rw [startsDo, startsBlank, isBlank', cut, Bool.true_and]
    exact apart

/-- Parameters have two bars, the first of them in front. -/
theorem bars_of_isParameterList {text : List Char}
    (list : isParameterList text = true) :
    isBlankText text = true ∨
      (trimLeft text).head? = some '|' ∧ text.count '|' = 2 := by
  have noBar {blanks : List Char} (blank : isBlankText blanks = true) :
      blanks.count '|' = 0 := by
    rw [List.count_eq_zero]
    intro member
    have isBlank' := List.all_eq_true.mp blank '|' member
    cases isBlank'
  rw [isParameterList, Bool.or_eq_true] at list
  refine list.imp_right fun found => ?_
  split at found
  · next rest trimmed =>
      split at found
      · next bar after dropped =>
          have isBar : bar = '|' := by
            have stops := List.head?_dropWhile_not (· != '|') rest
            simpa [dropped] using stops
          have names : (rest.takeWhile (· != '|')).count '|' = 0 := by
            rw [List.count_eq_zero]
            intro member
            simpa using List.all_eq_true.mp List.all_takeWhile _ member
          have within : rest.count '|' = 1 := by
            rw [← List.takeWhile_append_dropWhile (p := (· != '|')) (l := rest),
              List.count_append, names, dropped, isBar, List.count_cons_self,
              noBar found]
          refine ⟨by rw [trimmed, List.head?_cons], ?_⟩
          have blanks : isBlankText (text.takeWhile isBlank) = true :=
            List.all_takeWhile
          rw [← takeWhile_append_trimLeft text, List.count_append, trimmed,
            noBar blanks, List.count_cons_self, within]
      · cases found
  · cases found

theorem isDoOpener_parameters {names : List Char} (noBar : '|' ∉ names) :
    isDoOpener (' ' :: doWord ++ ' ' :: '|' :: (names ++ ['|'])) = true := by
  have after : (names ++ ['|']).dropWhile (· != '|') = ['|'] := by
    rw [List.dropWhile_append_of_pos]
    · rfl
    · intro character member
      simpa using fun same : character = '|' => noBar (same ▸ member)
  have list : isParameterList (' ' :: '|' :: (names ++ ['|'])) = true := by
    rw [isParameterList, trimLeft_cons_of_isBlank rfl,
      trimLeft_cons_of_not_isBlank rfl]
    simp only [after]
    exact Bool.or_eq_true_iff.mpr (.inr rfl)
  exact list

theorem endsWithWordAfter_end {last : Char} (ends : isWord last = false)
    (text : List Char) :
    endsWithWordAfter (!isWord ·) endWord
      (trimRight (text ++ last :: endWord)) = true := by
  have regrouped : text ++ last :: endWord =
      (text ++ last :: ['e', 'n']) ++ ['d'] := by
    simp [endWord]
  rw [regrouped, trimRight_append_singleton rfl]
  simp [endsWithWordAfter, endWord, afterWord?, ends]

theorem startsOrEnds_append {condition : Char → Bool} {character : Char}
    (holds : condition character = true) (front rest : List Char) :
    startsOrEnds condition (front ++ character :: rest) =
      startsOrEnds condition front := by
  cases front with
  | nil => exact holds
  | cons first others => rfl

theorem isInlineDo_closed {body : List Char} {last : Char}
    (apart : startsOrEnds (!isWord ·) (body ++ [last]) = true)
    (ends : isWord last = false) :
    isInlineDo (' ' :: doWord ++ (body ++ last :: endWord)) = true := by
  have cut : afterWord? doWord
      (trimLeft (' ' :: doWord ++ (body ++ last :: endWord))) =
        some (body ++ last :: endWord) := by
    rw [List.cons_append, trimLeft_cons_of_isBlank rfl]
    exact afterWord?_eq_some_iff.mpr rfl
  have starts : startsOrEnds (!isWord ·) (body ++ last :: endWord) = true := by
    cases body <;> exact apart
  rw [isInlineDo, cut]
  simp only
  rw [starts, endsWithWordAfter_end ends]
  rfl

/-! ## Braces -/

theorem beforeBrace?_append {front : List Char} {last : Char}
    (noBrace : '\x7b' ∉ front ++ [last]) (previous : Option Char)
    (rest : List Char) :
    beforeBrace? previous (front ++ last :: rest) =
      (beforeBrace? (some last) rest).map (front ++ last :: ·) := by
  induction front generalizing previous with
  | nil =>
      have skipped : (last == '\x7b') = false := by
        simpa using Ne.symm (List.ne_of_not_mem_cons noBrace)
      simp [beforeBrace?, skipped]
  | cons first others induction =>
      rw [List.cons_append, List.mem_cons, not_or] at noBrace
      have skipped : (first == '\x7b') = false := by
        simpa using Ne.symm noBrace.1
      simp [beforeBrace?, skipped, induction noBrace.2, Function.comp_def]

theorem isSome_beforeBrace? {previous : Char} {text : List Char} :
    (beforeBrace? (some previous) text).isSome = true ↔
      HoldsOpeningBrace (previous :: text) := by
  induction text generalizing previous with
  | nil =>
      constructor
      · intro found
        cases found
      · rintro ⟨before, character, after, cut, -⟩
        have short := congrArg List.length cut
        rw [List.length_append] at short
        simp only [List.length_cons, List.length_nil] at short
        omega
  | cons first others induction =>
      rw [beforeBrace?, Option.any_some]
      split
      · next here =>
          rw [Bool.and_eq_true, Bool.or_eq_true, beq_iff_eq, beq_iff_eq] at here
          refine iff_of_true rfl ⟨[], previous, others, ?_, here.2⟩
          rw [here.1, List.nil_append]
      · next elsewhere =>
          rw [Option.isSome_map, induction]
          constructor
          · rintro ⟨before, character, after, cut, opens⟩
            exact ⟨previous :: before, character, after, by rw [cut]; rfl,
              opens⟩
          · rintro ⟨before, character, after, cut, opens⟩
            cases before with
            | nil =>
                rcases List.cons.inj cut with ⟨rfl, behind⟩
                rcases List.cons.inj behind with ⟨rfl, -⟩
                simp [opens] at elsewhere
            | cons start before =>
                exact ⟨before, character, after, (List.cons.inj cut).2, opens⟩

theorem prefix_of_beforeBrace? {previous : Option Char} {text part : List Char}
    (found : beforeBrace? previous text = some part) : part <+: text := by
  induction text generalizing previous part with
  | nil => cases found
  | cons first others induction =>
      rw [beforeBrace?] at found
      split at found
      · cases found
        exact List.nil_prefix
      · rcases Option.map_eq_some_iff.mp found with ⟨later, within, rfl⟩
        exact List.cons_prefix_cons.mpr ⟨rfl, induction within⟩

/-! ## In front of a quote -/

/-- A search that finds in front of a quote what another one finds there, and
something behind the quote, finds what the other finds or else the quote. -/
theorem textBefore?_quote {quote : Char} {holds inner : List Char → Bool}
    {rest : List Char}
    (same : ∀ front, holds (front ++ quote :: rest) = inner front)
    (nothing : inner [] = false) (behind : textBefore? holds rest = some [])
    (text : List Char) :
    textBefore? holds (text ++ quote :: rest) =
      some ((textBefore? inner text).getD (text ++ [quote])) := by
  induction text with
  | nil =>
      have skipped : holds (quote :: rest) = false := (same []).trans nothing
      simp [textBefore?, skipped, behind]
  | cons first others induction =>
      have here : holds (first :: (others ++ quote :: rest)) =
          inner (first :: others) :=
        same (first :: others)
      rw [List.cons_append, textBefore?, textBefore?, here, induction]
      cases inner (first :: others) with
      | true => rfl
      | false => cases textBefore? inner others <;> rfl

section Quote

variable {quote : Char} (isQuote : quote = '\'' ∨ quote = '"')

include isQuote

/-- What a quote is not. -/
theorem quote_plain :
    isBlank quote = false ∧ isWord quote = false ∧
      quote ≠ 'd' ∧ quote ≠ 'o' ∧ quote ≠ '|' := by
  rcases isQuote with rfl | rfl <;> decide

/-- The opening word in front of a quote ends in front of it. -/
theorem afterDo_append (front rest : List Char) :
    afterWord? doWord (trimLeft (front ++ quote :: rest)) =
      (afterWord? doWord (trimLeft front)).map (· ++ quote :: rest) := by
  rcases quote_plain isQuote with ⟨notBlank, -, notD, notO, -⟩
  rw [trimLeft_append_cons notBlank]
  rcases trimLeft front with _ | ⟨first, _ | ⟨second, others⟩⟩
  · simp [afterWord?, doWord, notD.symm]
  · by_cases same : 'd' = first <;>
      simp [afterWord?, doWord, same, notO.symm]
  · simp only [afterWord?, doWord, List.cons_append]
    split
    · split <;> rfl
    · rfl

theorem startsBlank_append (front rest : List Char) :
    startsBlank (front ++ quote :: rest) = startsBlank front := by
  cases front with
  | nil => exact (quote_plain isQuote).1
  | cons first others => rfl

theorem isParameterList_quote (front names : List Char) :
    isParameterList (front ++ quote :: (' ' :: doWord ++ ' ' :: '|' ::
      (names ++ ['|']))) = false := by
  rcases quote_plain isQuote with ⟨notBlank, -, -, -, notBar⟩
  rw [← Bool.not_eq_true]
  intro list
  rcases bars_of_isParameterList list with blank | ⟨first, bars⟩
  · have isBlank' := List.all_eq_true.mp blank quote (by simp)
    rw [notBlank] at isBlank'
    cases isBlank'
  · have noBar : '|' ∉ front := by
      have behind : 2 ≤ (quote :: (' ' :: doWord ++ ' ' :: '|' ::
          (names ++ ['|']))).count '|' := by
        simp [List.count_cons, List.count_append]
        omega
      rw [List.count_append] at bars
      rw [← List.count_eq_zero]
      omega
    rw [trimLeft_append_cons notBlank] at first
    cases trimmed : trimLeft front with
    | nil =>
        rw [trimmed] at first
        exact notBar (Option.some.inj first)
    | cons start others =>
        rw [trimmed] at first
        have member : '|' ∈ trimLeft front := by
          rw [trimmed, ← Option.some.inj first]
          exact List.mem_cons_self
        exact noBar ((List.dropWhile_sublist isBlank).subset member)

theorem isDoOpener_quote {names : List Char} (front : List Char) :
    isDoOpener (front ++ quote ::
        (' ' :: doWord ++ ' ' :: '|' :: (names ++ ['|']))) =
      Function.const _ false front := by
  rw [isDoOpener, afterDo_append isQuote]
  cases afterWord? doWord (trimLeft front) with
  | none => exact Bool.and_false _
  | some inner =>
      rw [Option.map_some]
      simp only [isParameterList_quote isQuote, Bool.and_false]
      rfl

theorem isInlineDo_quote {body : List Char} {last : Char}
    (ends : isWord last = false) (front : List Char) :
    isInlineDo (front ++ quote :: (' ' :: doWord ++ (body ++ last :: endWord))) =
      startsDo front := by
  rcases quote_plain isQuote with ⟨-, notWord, -⟩
  rw [isInlineDo, startsBlank_append isQuote, afterDo_append isQuote, startsDo]
  cases afterWord? doWord (trimLeft front) with
  | none => rfl
  | some inner =>
      have regrouped : inner ++
            quote :: (' ' :: doWord ++ (body ++ last :: endWord)) =
          (inner ++ quote :: (' ' :: doWord ++ body)) ++ last :: endWord := by
        simp
      rw [Option.map_some]
      simp only
      rw [startsOrEnds_append (by simp [notWord]), regrouped,
        endsWithWordAfter_end ends, Bool.and_true]

/-- A brace behind a quote and a blank is found, unless there is one before. -/
theorem beforeBrace?_quote
    (previous : Option Char) (text rest : List Char) :
    beforeBrace? previous (text ++ quote :: ' ' :: '\x7b' :: rest) =
      some ((beforeBrace? previous text).getD (text ++ [quote, ' '])) := by
  induction text generalizing previous with
  | nil => rcases isQuote with rfl | rfl <;> rfl
  | cons first others induction =>
      rw [List.cons_append, beforeBrace?, beforeBrace?, induction]
      split
      · rfl
      · cases beforeBrace? (some first) others <;> rfl

end Quote

end SpecAudit.Spec

import SpecAudit.Proofs.Spec.Nesting
import SpecAudit.Proofs.Spec.OpenerSearch
import SpecAudit.Proofs.Spec.TitledHeading

/-!
# What opens a block behind a title

A line that declares a block is cut where its block is opened, and the search
for that place does not know where the title ends.  Where it stops inside the
title, the heading is cut there and the block is about nothing; everywhere else
the block is about its title.
-/

namespace SpecAudit.Spec

open SpecAudit.Text

/-! ## Openers -/

/-- What may open a block behind a title. -/
inductive BlockOpener where
  /-- The opening word. -/
  | word
  /-- The opening word and parameters between bars. -/
  | parameters (names : List Char) (noBar : '|' ∉ names)
  /-- The opening word, a body that no word of it runs into, and the closing
  word. -/
  | closed (body : List Char) (last : Char)
      (apart : startsOrEnds (!isWord ·) (body ++ [last]) = true)
      (ends : isWord last = false)
  /-- An opening brace. -/
  | brace
  /-- A body between braces. -/
  | braces (body : List Char)

namespace BlockOpener

/-- The opener as it is written, behind a blank. -/
def characters : BlockOpener → List Char
  | word => ' ' :: doWord
  | parameters names _ => ' ' :: doWord ++ ' ' :: '|' :: (names ++ ['|'])
  | closed body last _ _ => ' ' :: doWord ++ (body ++ last :: endWord)
  | brace => [' ', '\x7b']
  | braces body => ' ' :: '\x7b' :: (body ++ ['\x7d'])

/-- Whether a title holds what an opener is looked for by. -/
def IsFoundIn (title : List Char) : BlockOpener → Prop
  | word => False
  | parameters _ _ => False
  | closed _ _ _ _ => HoldsOpeningWord title
  | brace => HoldsOpeningBrace title
  | braces _ => HoldsOpeningBrace title

/-- What stands in front of the place in a title that an opener is taken to be
at, if there is one. -/
def found? (opener : BlockOpener) (quote : Char) (title : List Char) :
    Option (List Char) :=
  match opener with
  | word => none
  | parameters _ _ => none
  | closed _ _ _ _ => textBefore? startsDo title
  | brace => beforeBrace? (some quote) title
  | braces _ => beforeBrace? (some quote) title

theorem isSome_found? {quote : Char} (isQuote : quote = '\'' ∨ quote = '"')
    (opener : BlockOpener) (title : List Char) :
    (opener.found? quote title).isSome = true ↔ opener.IsFoundIn title := by
  have closesNothing : ¬ (isBlank quote = true ∨ quote = ')') := by
    rcases isQuote with rfl | rfl <;> decide
  have behindQuote : HoldsOpeningBrace (quote :: title) ↔
      HoldsOpeningBrace title := by
    constructor
    · rintro ⟨before, character, after, cut, opens⟩
      cases before with
      | nil => exact absurd ((List.cons.inj cut).1 ▸ opens) closesNothing
      | cons start before =>
          exact ⟨before, character, after, (List.cons.inj cut).2, opens⟩
    · rintro ⟨before, character, after, rfl, opens⟩
      exact ⟨quote :: before, character, after, rfl, opens⟩
  cases opener with
  | word => simp [found?, IsFoundIn]
  | parameters names noBar => simp [found?, IsFoundIn]
  | closed body last apart ends => exact isSome_textBefore?_startsDo
  | brace => exact isSome_beforeBrace?.trans behindQuote
  | braces body => exact isSome_beforeBrace?.trans behindQuote

theorem prefix_of_found? {opener : BlockOpener} {quote : Char}
    {title part : List Char}
    (found : opener.found? quote title = some part) : part <+: title := by
  cases opener with
  | word => cases found
  | parameters names noBar => cases found
  | closed body last apart ends => exact prefix_of_textBefore? found
  | brace => exact prefix_of_beforeBrace? found
  | braces body => exact prefix_of_beforeBrace? found

end BlockOpener

/-! ## Cutting the heading -/

namespace TitledHeading

variable (heading : TitledHeading)

/-- The heading as it is written, up to the opening quote, and then some text. -/
def upTo (part : List Char) : List Char :=
  heading.start ++ (heading.word.toList ++ ' ' :: heading.quote :: part)

theorem upTo_eq (part : List Char) :
    heading.upTo part =
      (heading.start ++ heading.word.toList ++ [' ']) ++
        heading.quote :: part := by
  simp [upTo]

theorem word_plain :
    ∀ character ∈ heading.start ++ heading.word.toList,
      isBlank character = false ∧ character ≠ '\x7b' := by
  have plain : (heading.start ++ heading.word.toList).all
      (fun character => !isBlank character && character != '\x7b') = true := by
    unfold start
    rcases keywordKind?_eq_some heading.word_kind with
      ⟨same | same, -⟩ | ⟨same | same | same, -⟩ <;>
    · rw [same]
      cases heading.qualified <;> decide
  intro character member
  simpa using List.all_eq_true.mp plain character member

theorem trimRight_upTo (part : List Char) :
    trimRight (heading.upTo part) = heading.upTo (trimRight part) := by
  rw [upTo_eq, upTo_eq, trimRight_append_cons heading.isBlank_quote]

/-- The opening word is not found in front of the title. -/
theorem textBefore?_upTo (part : List Char) :
    textBefore? startsDo (heading.upTo part) =
      (textBefore? startsDo part).map heading.upTo := by
  rcases quote_plain heading.quote_eq with ⟨notBlank, -, notD, -, -⟩
  have inWord (rest : List Char) :
      textBefore? startsDo (heading.start ++ heading.word.toList ++ rest) =
        (textBefore? startsDo rest).map
          (heading.start ++ heading.word.toList ++ ·) := by
    apply textBefore?_append_of_earlier
    intro ending proper suffix
    rcases List.exists_cons_of_ne_nil proper with ⟨first, others, rfl⟩
    have plain := (heading.word_plain first
      (suffix.subset List.mem_cons_self)).1
    simp [startsDo, startsBlank, plain]
  have atBlank : startsDo (' ' :: heading.quote :: part) = false := by
    have trimmed : trimLeft (' ' :: heading.quote :: part) =
        heading.quote :: part := by
      rw [trimLeft_cons_of_isBlank rfl, trimLeft_cons_of_not_isBlank notBlank]
    simp [startsDo, trimmed, afterWord?, doWord, notD.symm]
  have atQuote : startsDo (heading.quote :: part) = false := by
    simp [startsDo, startsBlank, notBlank]
  rw [upTo, ← List.append_assoc, inWord, textBefore?, atBlank, textBefore?,
    atQuote]
  simp [funext heading.upTo_eq, Function.comp_def]

/-- No brace is found in front of the title. -/
theorem beforeBrace?_upTo (part : List Char) :
    beforeBrace? none (heading.upTo part) =
      (beforeBrace? (some heading.quote) part).map heading.upTo := by
  have noBrace : '\x7b' ∉
      heading.start ++ heading.word.toList ++ [' '] ++ [heading.quote] := by
    intro member
    rw [List.mem_append, List.mem_append, List.mem_singleton,
      List.mem_singleton] at member
    rcases member with (inWord | isBlank') | isQuote
    · exact (heading.word_plain _ inWord).2 rfl
    · cases isBlank'
    · rcases heading.quote_eq with single | double
      · cases isQuote.trans single
      · cases isQuote.trans double
  rw [upTo_eq, beforeBrace?_append noBrace]
  simp only [← upTo_eq]

/-- What a heading that is cut inside its quotes is about. -/
theorem subject?_upTo (part : List Char) :
    Spec.subject? (heading.upTo part) =
      closedText? heading.quote false part := by
  rw [Spec.subject?, upTo, heading.leadingKeyword?_start]
  rcases heading.quote_eq with single | double
  · rw [single]
    rfl
  · rw [double]
    rfl

theorem getD_map_upTo (found : Option (List Char)) (rest : List Char) :
    (found.map heading.upTo).getD (heading.upTo heading.title ++ rest) =
      heading.upTo (found.getD (heading.title ++ rest)) := by
  cases found <;> simp [upTo]

theorem upTo_title_append (rest : List Char) :
    heading.upTo heading.title ++ heading.quote :: rest =
      heading.characters ++ rest := by
  simp [characters, quoted, upTo]

theorem trimRight_quoted :
    trimRight (heading.title ++ [heading.quote]) =
      heading.title ++ [heading.quote] :=
  trimRight_append_singleton heading.isBlank_quote _

theorem upTo_quoted :
    heading.upTo (heading.title ++ [heading.quote]) = heading.characters := by
  simp [characters, quoted, upTo]

/-- Behind an opening word with parameters the title is whole. -/
theorem splitHeading_parameters {names : List Char} (noBar : '|' ∉ names) :
    (splitHeading (heading.characters ++
        (BlockOpener.parameters names noBar).characters)).1 =
      heading.characters := by
  have behind : textBefore? isDoOpener
      (' ' :: doWord ++ ' ' :: '|' :: (names ++ ['|'])) = some [] := by
    rw [List.cons_append, textBefore?, ← List.cons_append,
      if_pos (isDoOpener_parameters noBar)]
  have found := textBefore?_quote
    (isDoOpener_quote heading.quote_eq) rfl behind
    (heading.upTo heading.title)
  have nowhere : textBefore? (Function.const _ false)
      (heading.upTo heading.title) = none :=
    textBefore?_eq_none fun _ _ _ => rfl
  rw [nowhere, Option.getD_none, upTo_title_append, upTo_title_append,
    List.append_nil] at found
  have cut : beforeDo? (heading.characters ++
      (BlockOpener.parameters names noBar).characters) = _ := found
  have open' : beforeInlineDo? (heading.characters ++
      (BlockOpener.parameters names noBar).characters) = none := by
    have regrouped : heading.characters ++
        (BlockOpener.parameters names noBar).characters =
          (heading.characters ++ (' ' :: doWord ++ ' ' :: '|' :: names)) ++
            ['|'] := by
      simp [BlockOpener.characters]
    rw [regrouped]
    exact beforeInlineDo?_append_singleton rfl (by decide) _
  rw [splitHeading, open', cut, ← heading.upTo_quoted]
  exact (heading.trimRight_upTo _).trans (by rw [trimRight_quoted])

/-- Behind an opening word whose block is closed on the line, the heading is cut
at the first opening word. -/
theorem splitHeading_closed {body : List Char} {last : Char}
    (apart : startsOrEnds (!isWord ·) (body ++ [last]) = true)
    (ends : isWord last = false) :
    (splitHeading (heading.characters ++
        (BlockOpener.closed body last apart ends).characters)).1 =
      heading.upTo (trimRight ((textBefore? startsDo heading.title).getD
        (heading.title ++ [heading.quote]))) := by
  have behind : textBefore? isInlineDo
      (' ' :: doWord ++ (body ++ last :: endWord)) = some [] := by
    rw [List.cons_append, textBefore?, ← List.cons_append,
      if_pos (isInlineDo_closed apart ends)]
  have found := textBefore?_quote
    (isInlineDo_quote heading.quote_eq ends) rfl
    behind (heading.upTo heading.title)
  rw [upTo_title_append, textBefore?_upTo, getD_map_upTo] at found
  have cut : beforeInlineDo? (heading.characters ++
      (BlockOpener.closed body last apart ends).characters) = _ := found
  rw [splitHeading, cut]
  exact heading.trimRight_upTo _

/-- In front of a brace the heading is cut at the first brace behind a blank or a
closing parenthesis. -/
theorem splitHeading_brace {rest : List Char} {last : Char}
    (isBrace : last = '\x7b' ∨ last = '\x7d') (front : List Char)
    (written : ' ' :: '\x7b' :: rest = front ++ [last]) :
    (splitHeading (heading.characters ++ ' ' :: '\x7b' :: rest)).1 =
      heading.upTo (trimRight
        ((beforeBrace? (some heading.quote) heading.title).getD
          (heading.title ++ [heading.quote]))) := by
  have plain : isBlank last = false ∧ last ≠ 'd' ∧ last ≠ 'o' ∧ last ≠ '|' := by
    rcases isBrace with rfl | rfl <;> decide
  rcases plain with ⟨notBlank, notD, notO, notBar⟩
  have open' : beforeInlineDo? (heading.characters ++ ' ' :: '\x7b' :: rest) =
      none := by
    rw [written, ← List.append_assoc]
    exact beforeInlineDo?_append_singleton notBlank notD _
  have noWord : beforeDo? (heading.characters ++ ' ' :: '\x7b' :: rest) =
      none := by
    rw [written, ← List.append_assoc]
    exact beforeDo?_append_singleton notBlank notO notBar _
  have found := beforeBrace?_quote heading.quote_eq none
    (heading.upTo heading.title) rest
  rw [upTo_title_append, beforeBrace?_upTo, getD_map_upTo] at found
  rw [splitHeading, open', noWord, found]
  refine (heading.trimRight_upTo _).trans (congrArg heading.upTo ?_)
  cases beforeBrace? (some heading.quote) heading.title with
  | some part => rfl
  | none =>
      have trimmed : trimRight (heading.title ++ [heading.quote, ' ']) =
          heading.title ++ [heading.quote] :=
        trimRight_append_cons heading.isBlank_quote _ [' ']
      exact trimmed.trans heading.trimRight_quoted.symm

/-- The line is cut behind the title, or where the opener is found in it. -/
theorem splitHeading_opened (opener : BlockOpener) :
    (splitHeading (heading.characters ++ opener.characters)).1 =
      heading.upTo (trimRight
        ((opener.found? heading.quote heading.title).getD
          (heading.title ++ [heading.quote]))) := by
  have whole : heading.upTo (trimRight (heading.title ++ [heading.quote])) =
      heading.characters := by
    rw [trimRight_quoted, upTo_quoted]
  cases opener with
  | word =>
      exact (congrArg Prod.fst heading.splitHeading_opening).trans whole.symm
  | parameters names noBar =>
      exact (heading.splitHeading_parameters noBar).trans whole.symm
  | closed body last apart ends => exact heading.splitHeading_closed apart ends
  | brace => exact heading.splitHeading_brace (.inl rfl) [' '] rfl
  | braces body =>
      exact heading.splitHeading_brace (.inr rfl) (' ' :: '\x7b' :: body) rfl

/-- A heading that is cut inside its title is about nothing. -/
theorem subject?_opened_of_found {opener : BlockOpener}
    (found : opener.IsFoundIn heading.title) :
    Spec.subject?
      (splitHeading (heading.characters ++ opener.characters)).1 = none := by
  have isFound := (opener.isSome_found? heading.quote_eq heading.title).mpr found
  rcases Option.isSome_iff_exists.mp isFound with ⟨part, cut⟩
  rw [splitHeading_opened, cut, Option.getD_some, subject?_upTo]
  apply closedText?_eq_none
  intro member
  exact heading.quote_not_mem
    ((BlockOpener.prefix_of_found? cut).subset (mem_of_mem_trimRight member))

/-- A heading that is cut behind its title is about it. -/
theorem subject?_opened_of_not_found {opener : BlockOpener}
    (oneLine : '\n' ∉ heading.title)
    (absent : ¬ opener.IsFoundIn heading.title) :
    Spec.subject?
      (splitHeading (heading.characters ++ opener.characters)).1 =
        some heading.title := by
  have nowhere : opener.found? heading.quote heading.title = none := by
    rwa [← Option.not_isSome_iff_eq_none,
      opener.isSome_found? heading.quote_eq heading.title]
  rw [splitHeading_opened, nowhere, Option.getD_none, trimRight_quoted,
    upTo_quoted]
  exact heading.subject?_characters oneLine

end TitledHeading

/-! ## Blocks of a text -/

/-- The block that a line declares is the only one with its number. -/
theorem filter_headings_outlineForest {text : String} {number : Nat}
    {raw : List Char} {heading : Heading}
    (line : (number, raw) ∈ numberedLines text.toList)
    (declared : declaredHeading? (number, raw) = some heading) :
    (outlineForest text).headings.filter (·.line = number) = [heading] := by
  have ordered := pairwise_numberedLines text.toList
  have listed : (outlineForest text).headings =
      (numberedLines text.toList).filterMap declaredHeading? :=
    (Outline.Follows.of_foldl ordered).listed
  have elsewhere {numbered : List (Nat × List Char)}
      (other : ∀ line ∈ numbered, line.1 ≠ number) :
      (numbered.filterMap declaredHeading?).filter (·.line = number) = [] := by
    rw [List.filter_eq_nil_iff]
    intro heading member
    rcases List.mem_filterMap.mp member with ⟨⟨number', raw'⟩, among, found⟩
    rw [(declaredHeading?_eq_some found).2.2.1]
    simpa using other _ among
  rcases List.append_of_mem line with ⟨before, after, split⟩
  rw [split, List.pairwise_append, List.pairwise_cons] at ordered
  rcases ordered with ⟨-, ⟨later, -⟩, earlier⟩
  have number_eq : heading.line = number :=
    (declaredHeading?_eq_some declared).2.2.1
  rw [listed, split, List.filterMap_append, List.filterMap_cons, declared,
    List.filter_append,
    elsewhere fun line member =>
      Nat.ne_of_lt (earlier line member _ List.mem_cons_self),
    List.filter_cons_of_pos (by simpa using number_eq),
    elsewhere fun line member => (Nat.ne_of_lt (later line member)).symm]
  rfl

/--
A line with a quoted title and an opener declares one block.  It is about its
title unless the opener is found in the title, and then it is about nothing.
-/
theorem subject?_of_opened {text : String} {number : Nat} {raw : List Char}
    {heading : TitledHeading} {opener : BlockOpener}
    (line : (number, raw) ∈ numberedLines text.toList)
    (written : trim raw = heading.characters ++ opener.characters) :
    ∃ placed : Heading,
      (outlineForest text).headings.filter (·.line = number) = [placed] ∧
        placed.kind = heading.kind ∧
        (opener.IsFoundIn heading.title → placed.subject? = none) ∧
        (¬ opener.IsFoundIn heading.title →
          placed.subject? = some (String.ofList heading.title)) := by
  have declared : declaredHeading? (number, raw) =
      some ⟨String.ofList
        (splitHeading (heading.characters ++ opener.characters)).1,
        indentOf raw, number, heading.kind⟩ := by
    rw [declaredHeading?]
    simp only [written, heading.declaredKind?_append, Option.map_some]
  refine ⟨_, filter_headings_outlineForest line declared, rfl, fun found => ?_,
    fun absent => ?_⟩
  · rw [Heading.subject?, String.toList_ofList,
      heading.subject?_opened_of_found found, Option.map_none]
  · have oneLine : '\n' ∉ heading.title := by
      intro member
      have within : '\n' ∈ raw := by
        apply mem_of_mem_trim
        rw [written]
        simp [TitledHeading.characters, TitledHeading.quoted, member]
      have inLines : raw ∈ lines text.toList := by
        rcases List.mem_mapIdx.mp line with ⟨index, inside, same⟩
        exact (Prod.mk.inj same).2 ▸ List.getElem_mem inside
      cases not_isLineBoundary_of_mem_lines raw inLines '\n' within
    rw [Heading.subject?, String.toList_ofList,
      heading.subject?_opened_of_not_found oneLine absent, Option.map_some]

/-- Two lines with one title, in which the opening word stands: behind parameters
it is not looked for, and in front of an `end` it is. -/
def openersDocument : String :=
  "it 'users do nothing' do |user|\nend\nit 'users do nothing' do run end"

theorem subject?_of_opened_users :
    (∃ placed : Heading,
      (outlineForest openersDocument).headings.filter (·.line = 1) = [placed] ∧
        placed.kind = .scenario ∧
        placed.subject? = some "users do nothing") ∧
      ∃ placed : Heading,
        (outlineForest openersDocument).headings.filter (·.line = 3) = [placed] ∧
          placed.kind = .scenario ∧ placed.subject? = none := by
  let heading : TitledHeading :=
    ⟨false, "it", .scenario, '\'', "users do nothing".toList, rfl, .inl rfl,
      by decide, by decide⟩
  have title : String.ofList heading.title = "users do nothing" := by decide
  constructor
  · have line : (1, "it 'users do nothing' do |user|".toList) ∈
        numberedLines openersDocument.toList := by
      decide +kernel
    have written : trim "it 'users do nothing' do |user|".toList =
        heading.characters ++
          (BlockOpener.parameters "user".toList (by decide)).characters := by
      decide +kernel
    rcases subject?_of_opened line written with ⟨placed, only, kind, -, whole⟩
    exact ⟨placed, only, kind, title ▸ whole id⟩
  · have line : (3, "it 'users do nothing' do run end".toList) ∈
        numberedLines openersDocument.toList := by
      decide +kernel
    have written : trim "it 'users do nothing' do run end".toList =
        heading.characters ++
          (BlockOpener.closed " run".toList ' ' rfl rfl).characters := by
      decide +kernel
    have held : HoldsOpeningWord heading.title :=
      ⟨"users".toList, ' ', " nothing".toList, rfl, rfl, rfl⟩
    rcases subject?_of_opened line written with ⟨placed, only, kind, cut, -⟩
    exact ⟨placed, only, kind, cut held⟩

end SpecAudit.Spec

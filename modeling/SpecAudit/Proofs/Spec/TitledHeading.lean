import SpecAudit.Proofs.Spec.OpeningWord
import SpecAudit.Spec.Keyword

/-!
# Headings with a quoted title

A heading is usually a word that declares a block, perhaps behind the name of
the framework, and a quoted title.  Whatever the title says, a line that opens
a block behind such a heading is read as it is meant: it declares a block of
the kind of its word, its heading is cut off exactly before the opening word,
and the subject of the heading is the title.
-/

namespace SpecAudit.Spec

open SpecAudit.Text

/--
A word that declares blocks of a kind and a title between quotes.  The quote
does not occur in the title, and no backslash stands before the closing one.
-/
structure TitledHeading where
  /-- Whether the word stands behind the name of the framework and a dot. -/
  qualified : Bool
  word : String
  kind : BlockKind
  quote : Char
  title : List Char
  word_kind : keywordKind? word = some kind
  quote_eq : quote = '\'' ∨ quote = '"'
  quote_not_mem : quote ∉ title
  last_ne : title.getLast? ≠ some '\\'

namespace TitledHeading

variable (heading : TitledHeading)

/-- The title between its quotes. -/
def quoted : List Char :=
  heading.quote :: (heading.title ++ [heading.quote])

/-- The name of the framework with its dot, where it stands. -/
def start : List Char :=
  if heading.qualified then qualifier ++ ['.'] else []

/-- The heading as it is written. -/
def characters : List Char :=
  heading.start ++ (heading.word.toList ++ ' ' :: heading.quoted)

/-- The line that opens a block behind the heading. -/
def opening : List Char :=
  heading.characters ++ [' ', 'd', 'o']

/-- The heading of the block that the line opens, at its place in a text. -/
def placed (indent line : Nat) : Heading :=
  ⟨String.ofList heading.characters, indent, line, heading.kind⟩

variable {heading} in
theorem placed_eq {text : String} (written : heading.characters = text.toList)
    {indent line : Nat} :
    heading.placed indent line = ⟨text, indent, line, heading.kind⟩ := by
  rw [placed, written, String.ofList_toList]

theorem isBlank_quote : isBlank heading.quote = false := by
  rcases heading.quote_eq with single | double
  · rw [single]
    rfl
  · rw [double]
    rfl

end TitledHeading

/-! ## The word -/

theorem keywordKind?_eq_some {word : String} {kind : BlockKind}
    (known : keywordKind? word = some kind) :
    (word = "describe" ∨ word = "context") ∧ kind = .group ∨
      (word = "it" ∨ word = "example" ∨ word = "specify") ∧
        kind = .scenario := by
  unfold keywordKind? at known
  split at known
  · next group =>
      left
      simp only [groupWords, List.contains_cons, List.contains_nil,
        Bool.or_false, Bool.or_eq_true, beq_iff_eq] at group
      exact ⟨group, (Option.some.inj known).symm⟩
  · split at known
    · next scenario =>
        right
        simp only [scenarioWords, List.contains_cons, List.contains_nil,
          Bool.or_false, Bool.or_eq_true, beq_iff_eq] at scenario
        exact ⟨scenario, (Option.some.inj known).symm⟩
    · cases known

namespace TitledHeading

variable (heading : TitledHeading)

/-- The word is recognised, whatever follows the blank behind it. -/
theorem leadingKeyword?_start (rest : List Char) :
    leadingKeyword?
        (heading.start ++ (heading.word.toList ++ ' ' :: rest)) =
      some (heading.word.toList, ' ' :: rest) := by
  unfold start
  rcases keywordKind?_eq_some heading.word_kind with
    ⟨same | same, -⟩ | ⟨same | same | same, -⟩ <;>
  · rw [same]
    cases heading.qualified <;> rfl

theorem declares_quoted (rest : List Char) :
    declares (' ' :: heading.quote :: rest) = true := by
  rcases heading.quote_eq with single | double
  · rw [single]
    rfl
  · rw [double]
    rfl

theorem declaredKind?_append (rest : List Char) :
    declaredKind? (heading.characters ++ rest) = some heading.kind := by
  have split : heading.characters ++ rest =
      heading.start ++ (heading.word.toList ++
        ' ' :: heading.quote :: (heading.title ++ heading.quote :: rest)) := by
    simp [characters, quoted]
  rw [split, declaredKind?, heading.leadingKeyword?_start]
  simp [heading.declares_quoted, heading.word_kind]

theorem isEnd_opening : isEnd heading.opening = false := by
  have first : heading.opening =
      heading.start ++ (heading.word.toList ++
        ' ' :: (heading.quoted ++ [' ', 'd', 'o'])) := by
    simp [opening, characters]
  rw [first]
  unfold start
  rcases keywordKind?_eq_some heading.word_kind with
    ⟨same | same, -⟩ | ⟨same | same | same, -⟩ <;>
  · rw [same]
    cases heading.qualified <;> rfl

/-! ## The opening word -/

theorem opening_eq_append :
    ∃ before, heading.characters = before ++ [heading.quote] ∧
      heading.opening = before ++ heading.quote :: [' ', 'd', 'o'] := by
  refine
    ⟨heading.start ++
      (heading.word.toList ++ ' ' :: heading.quote :: heading.title), ?_, ?_⟩
  · simp [characters, quoted]
  · simp [opening, characters, quoted]

/-- The heading is what stands before the opening word, whatever its title. -/
theorem splitHeading_opening :
    splitHeading heading.opening = (heading.characters, false) := by
  rcases heading.opening_eq_append with ⟨before, written, opened⟩
  rw [written, opened]
  exact splitHeading_append heading.isBlank_quote before

theorem beforeDo?_opening :
    beforeDo? heading.opening = some heading.characters := by
  rcases heading.opening_eq_append with ⟨before, written, opened⟩
  rw [written, opened]
  exact beforeDo?_append heading.isBlank_quote before

end TitledHeading

/-! ## The subject -/

/--
A text is closed at the first quote, if no line ends before it and no
backslash stands right before it.
-/
theorem closedText?_append {quote : Char} {title rest : List Char}
    (absent : quote ∉ title) (oneLine : '\n' ∉ title) :
    ∀ escaped : Bool, (title = [] → escaped = false) →
      title.getLast? ≠ some '\\' →
      closedText? quote escaped (title ++ quote :: rest) = some title := by
  induction title with
  | nil =>
      intro escaped open' _
      simp [closedText?, open' rfl]
  | cons first others induction =>
      intro escaped _ last
      simp only [List.mem_cons, not_or] at absent oneLine
      have notQuote : (first == quote) = false := by
        simpa using Ne.symm absent.1
      have notBreak : (first == '\n') = false := by
        simpa using Ne.symm oneLine.1
      have later : closedText? quote (first == '\\') (others ++ quote :: rest) =
          some others := by
        apply induction absent.2 oneLine.2
        · rintro rfl
          simpa using last
        · cases others with
          | nil => simp
          | cons second others => simpa using last
      simp [closedText?, notQuote, notBreak, later]

/-- Without a quote a text is not closed. -/
theorem closedText?_eq_none {quote : Char} {text : List Char}
    (absent : quote ∉ text)
    (escaped : Bool) : closedText? quote escaped text = none := by
  induction text generalizing escaped with
  | nil => rfl
  | cons first others induction =>
      rw [List.mem_cons, not_or] at absent
      have notQuote : (first == quote) = false := by
        simpa using Ne.symm absent.1
      rw [closedText?, notQuote, Bool.false_and, if_neg Bool.false_ne_true,
        induction absent.2]
      split <;> rfl

namespace TitledHeading

variable (heading : TitledHeading)

/-- The subject of the heading is its title, if that stands on one line. -/
theorem subject?_characters (oneLine : '\n' ∉ heading.title) :
    Spec.subject? heading.characters = some heading.title := by
  have closed : closedText? heading.quote false
      (heading.title ++ heading.quote :: []) = some heading.title :=
    closedText?_append heading.quote_not_mem oneLine false
      (fun _ => rfl) heading.last_ne
  rw [Spec.subject?, characters, heading.leadingKeyword?_start, quoted]
  rcases heading.quote_eq with single | double
  · rw [single] at closed ⊢
    exact closed
  · rw [double] at closed ⊢
    exact closed

end TitledHeading

end SpecAudit.Spec

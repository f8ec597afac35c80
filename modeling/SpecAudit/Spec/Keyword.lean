import SpecAudit.Spec.Block
import SpecAudit.Text.Search
import SpecAudit.Text.Word

/-!
# Words that declare blocks

Which words declare groups and scenarios, and what the lines that do so look like.  A line is given
without blanks on either side.  A word that is assigned to, or stands before an operator, is a
variable of that name and declares nothing.
-/

namespace SpecAudit.Spec

open SpecAudit.Text

/-- The words that declare groups. -/
def groupWords : List String := ["describe", "context"]

/-- The words that declare scenarios. -/
def scenarioWords : List String := ["it", "example", "specify"]

/-- The kind of block that a word declares. -/
def keywordKind? (word : String) : Option BlockKind :=
  if groupWords.contains word then some .group
  else if scenarioWords.contains word then some .scenario
  else none

/-- The words that declare blocks, as characters. -/
def keywords : List (List Char) :=
  (groupWords ++ scenarioWords).map String.toList

/-- The name that may stand before a keyword with a dot. -/
def qualifier : List Char := ['R', 'S', 'p', 'e', 'c']

/-- What follows the qualifier, its dot and the blanks around it, if a text starts so. -/
def afterQualifier (text : List Char) : List Char :=
  match afterWord? qualifier text with
  | none => text
  | some rest =>
    match trimLeft rest with
    | '.' :: rest => trimLeft rest
    | _ => text

/-- The keyword that a text starts with, and what follows it. -/
def leadingKeyword? (text : List Char) : Option (List Char × List Char) :=
  afterAnyWord? keywords (afterQualifier text)

/-- The operators that an assignment may be combined with. -/
def combinable : List (List Char) :=
  [['-'], ['+'], ['*'], ['/'], ['%'], ['&'], ['|'], ['^'], ['|', '|'], ['&', '&'], ['<', '<'],
    ['>', '>'], []]

/-- Whether a text starts with an equals sign, alone or behind an operator. -/
def startsAssignment (text : List Char) : Bool :=
  combinable.any fun operator => (afterWord? (operator ++ ['=']) text).isSome

/-- Whether a text starts with an operator that has nothing or a blank after it. -/
def startsOperator : List Char → Bool
  | [] => false
  | character :: rest =>
    ['-', '+', '*', '/', '%', '&', '|', '^', '<', '>', '?'].contains character
      && startsOrEnds isBlank rest

/-- Whether what follows a keyword fits a declaration: nothing, an opening parenthesis, or blanks
and then neither an assignment nor an operator. -/
def declares (rest : List Char) : Bool :=
  match rest with
  | [] => true
  | character :: _ =>
    match trimLeft rest with
    | '(' :: _ => true
    | [] => false
    | argument => isBlank character && !startsAssignment argument && !startsOperator argument

/-- The kind of block that a line declares. -/
def declaredKind? (line : List Char) : Option BlockKind :=
  match leadingKeyword? line with
  | some (keyword, rest) =>
    if declares rest then keywordKind? (String.ofList keyword) else none
  | none => none

/-- The text of a string up to its closing quote: a quote behind a backslash does not close it,
and neither does anything on a later line. -/
def closedText? (quote : Char) (escaped : Bool) : List Char → Option (List Char)
  | [] => none
  | character :: rest =>
    if character == quote && !escaped then some []
    else if character == '\n' then none
    else (closedText? quote (character == '\\') rest).map (character :: ·)

/-- A name after a colon: a letter or underscore, word characters, and one of `?`, `!`, `=`. -/
def symbolName? (text : List Char) : Option (List Char) :=
  match text with
  | [] => none
  | first :: rest =>
    if first.isAlpha || first == '_' then
      let body := rest.takeWhile isWord
      let ending := match rest.dropWhile isWord with
        | '?' :: _ => ['?']
        | '!' :: _ => ['!']
        | '=' :: _ => ['=']
        | _ => []
      some (first :: body ++ ending)
    else none

/-- The text without a leading opening parenthesis. -/
def skipParenthesis : List Char → List Char
  | '(' :: rest => rest
  | text => text

/-- The first string or symbol that a heading gives as its argument. -/
def subject? (heading : List Char) : Option (List Char) :=
  match leadingKeyword? heading with
  | none => none
  | some (_, rest) =>
    match trimLeft (skipParenthesis (trimLeft rest)) with
    | '\'' :: rest => closedText? '\'' false rest
    | '"' :: rest => closedText? '"' false rest
    | ':' :: rest => symbolName? rest
    | _ => none

/-- The subject of a block: the first string or symbol of its heading. -/
def Heading.subject? (heading : Heading) : Option String :=
  (Spec.subject? heading.text.toList).map String.ofList

/-- The subject of a block. -/
def Block.subject? (block : Block) : Option String :=
  block.heading.subject?

end SpecAudit.Spec

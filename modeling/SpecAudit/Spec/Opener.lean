import SpecAudit.Text.Search
import SpecAudit.Text.Word

/-!
# What opens and closes a construct on a line

Lines are given without blanks on either side.  A line may open a block with `do` or a brace, open
a construct that a later `end` closes, or be such an `end`.
-/

namespace SpecAudit.Spec

open SpecAudit.Text

/-- The word that opens a block. -/
def doWord : List Char := ['d', 'o']

/-- The word that closes a construct. -/
def endWord : List Char := ['e', 'n', 'd']

/-- Whether a text is blank, or holds only block parameters between bars. -/
def isParameterList (text : List Char) : Bool :=
  isBlankText text ||
    match trimLeft text with
    | '|' :: rest =>
      match rest.dropWhile (· != '|') with
      | _ :: rest => isBlankText rest
      | [] => false
    | _ => false

/-- Whether a text starts with blanks, the opening word, and perhaps parameters, up to its end. -/
def isDoOpener (text : List Char) : Bool :=
  startsBlank text && match afterWord? doWord (trimLeft text) with
    | some rest => isParameterList rest
    | none => false

/-- Whether a text starts with blanks, the opening word, and a body that is closed at its end. -/
def isInlineDo (text : List Char) : Bool :=
  startsBlank text && match afterWord? doWord (trimLeft text) with
    | some rest =>
      startsOrEnds (!isWord ·) rest && endsWithWordAfter (!isWord ·) endWord (trimRight rest)
    | none => false

/-- The text before an opening word that nothing but parameters follows. -/
def beforeDo? (line : List Char) : Option (List Char) :=
  textBefore? isDoOpener line

/-- The text before an opening word whose block is closed on the same line. -/
def beforeInlineDo? (line : List Char) : Option (List Char) :=
  textBefore? isInlineDo line

/-- The text before the first opening brace that follows a blank or a closing parenthesis. -/
def beforeBrace? (previous : Option Char) : List Char → Option (List Char)
  | [] => none
  | character :: rest =>
    if character == '\x7b' && previous.any (fun before => isBlank before || before == ')') then
      some []
    else (beforeBrace? (some character) rest).map (character :: ·)

/-- A declaration split into its heading and whether its block is closed on the same line. -/
def splitHeading (line : List Char) : List Char × Bool :=
  match beforeInlineDo? line with
  | some heading => (trimRight heading, true)
  | none =>
    match beforeDo? line with
    | some heading => (trimRight heading, false)
    | none =>
      match beforeBrace? none line with
      | some heading => (trimRight heading, line.getLast? == some '\x7d')
      | none => (line, false)

/-- Whether a character would make a longer name, a predicate or a key of the word before it. -/
def continuesName (character : Char) : Bool :=
  isWord character || character == '?' || character == '!' || character == ':'

/-- Whether a line starts with the closing word. -/
def isEnd (line : List Char) : Bool :=
  match afterWord? endWord line with
  | some rest => startsOrEnds (!continuesName ·) rest
  | none => false

/-- Whether a line ends with the closing word, after a blank or a semicolon. -/
def endsInEnd (line : List Char) : Bool :=
  endsWithWordAfter (fun character => isBlank character || character == ';') endWord
    (trimRight line)

/-- The words that open a construct which an `end` closes. -/
def openingWords : List (List Char) :=
  ["def", "class", "module", "if", "unless", "case", "begin", "while", "until", "for"].map
    String.toList

/-- Whether a text starts with a word that opens a construct. -/
def startsConstruct (text : List Char) : Bool :=
  match afterAnyWord? openingWords text with
  | some (_, rest) => startsOrEnds (!continuesName ·) rest
  | none => false

/-- Whether a character may stand in the target of an assignment. -/
def isTargetCharacter (character : Char) : Bool :=
  isWord character || ['@', '$', '.', '[', ']', ':'].contains character

/-- The text without an operator that may be combined with an assignment. -/
def skipOperator (text : List Char) : List Char :=
  match text with
  | '|' :: '|' :: rest => rest
  | '&' :: '&' :: rest => rest
  | '-' :: rest => rest
  | '+' :: rest => rest
  | '*' :: rest => rest
  | '/' :: rest => rest
  | _ => text

/-- What is assigned, if a text starts with an assignment. -/
def assignedText? (text : List Char) : Option (List Char) :=
  if (text.takeWhile isTargetCharacter).isEmpty then none
  else
    match skipOperator (trimLeft (text.dropWhile isTargetCharacter)) with
    | '=' :: rest => some (trimLeft rest)
    | _ => none

/-- Whether a line starts with a word that opens a construct, perhaps behind an assignment. -/
def opensByWord (line : List Char) : Bool :=
  (assignedText? line).any startsConstruct || startsConstruct line

/-- Whether a text goes on with an equals sign that belongs to no longer operator. -/
def startsEndlessBody (text : List Char) : Bool :=
  match trimLeft text with
  | '=' :: rest => startsOrEnds (fun next => !(['=', '~', '>'].contains next)) rest
  | _ => false

/-- Whether some closing parenthesis of a text is followed by an endless body. -/
def endlessAfterParenthesis : List Char → Bool
  | [] => false
  | ')' :: rest => startsEndlessBody rest || endlessAfterParenthesis rest
  | _ :: rest => endlessAfterParenthesis rest

/-- The text without one leading question or exclamation mark. -/
def skipNameEnding : List Char → List Char
  | '?' :: rest => rest
  | '!' :: rest => rest
  | text => text

/-- Whether a line defines a method whose body is a single expression after an equals sign. -/
def isEndlessDefinition (line : List Char) : Bool :=
  let inName := fun character => isWord character || character == '.'
  match afterWord? ['d', 'e', 'f'] line with
  | none => false
  | some rest =>
    let name := trimLeft rest
    startsBlank rest && !(name.takeWhile inName).isEmpty
      && match skipNameEnding (name.dropWhile inName) with
        | '(' :: rest => endlessAfterParenthesis rest
        | rest => startsEndlessBody rest

/-- Whether a line that declares no block opens a construct that a later `end` closes. -/
def opensConstruct (line : List Char) : Bool :=
  !(endsInEnd line || isEndlessDefinition line) && ((beforeDo? line).isSome || opensByWord line)

end SpecAudit.Spec

/-!
# Blank characters and trimming

A character is *blank* when it is white space in the Unicode sense, the four ASCII information
separators included.  Texts are trimmed of blanks on either side.  The main statement is
`takeWhile_append_trimLeft`: the leading blanks and the trimmed text make up the text again.
-/

namespace SpecAudit.Text

/-- White space of the Unicode standard, together with the separators `0x1c` to `0x1f`. -/
def isBlank (character : Char) : Bool :=
  let code := character.toNat
  (9 ≤ code && code ≤ 13) || (28 ≤ code && code ≤ 32) || code == 0x85 || code == 0xa0
    || code == 0x1680 || (0x2000 ≤ code && code ≤ 0x200a) || code == 0x2028 || code == 0x2029
    || code == 0x202f || code == 0x205f || code == 0x3000

/-- The text without its leading blanks. -/
def trimLeft (characters : List Char) : List Char :=
  characters.dropWhile isBlank

/-- The text without its trailing blanks. -/
def trimRight : List Char → List Char
  | [] => []
  | character :: rest =>
    match trimRight rest with
    | [] => if isBlank character then [] else [character]
    | kept => character :: kept

/-- The text without its leading and trailing blanks. -/
def trim (characters : List Char) : List Char :=
  trimRight (trimLeft characters)

/-- How many blanks the text starts with. -/
def indentOf (characters : List Char) : Nat :=
  (characters.takeWhile isBlank).length

/-- Whether the text is empty or blank throughout. -/
def isBlankText (characters : List Char) : Bool :=
  characters.all isBlank

/-- Whether a text starts with a blank. -/
def startsBlank : List Char → Bool
  | [] => false
  | character :: _ => isBlank character

/-- The leading blanks and the text after them are the text. -/
theorem takeWhile_append_trimLeft (characters : List Char) :
    characters.takeWhile isBlank ++ trimLeft characters = characters :=
  List.takeWhile_append_dropWhile

/-- A string without its leading and trailing blanks. -/
def trimmed (text : String) : String :=
  String.ofList (trim text.toList)

end SpecAudit.Text

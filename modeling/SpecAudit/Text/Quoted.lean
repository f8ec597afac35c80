import SpecAudit.Text.Printable

/-!
# Quoted words

How a word is shown inside a message: between single quotes, or between double quotes when it
holds a single quote and no double quote.  The quote in use and the backslash are escaped, and
every character that is not printable is written by its code.
-/

namespace SpecAudit.Text

/-- The lower-case hexadecimal digit of a number below sixteen. -/
def hexDigit (value : Nat) : Char :=
  if value < 10 then Char.ofNat (48 + value) else Char.ofNat (87 + value)

/-- The last `width` hexadecimal digits of a number. -/
def hexDigits : Nat → Nat → List Char
  | 0, _ => []
  | width + 1, value => hexDigits width (value / 16) ++ [hexDigit (value % 16)]

/-- The quote that surrounds a word. -/
def quoteFor (word : List Char) : Char :=
  if word.contains '\'' && !word.contains '"' then '"' else '\''

/-- One character of a quoted word. -/
def quotedCharacter (quote character : Char) : List Char :=
  if character == quote || character == '\\' then ['\\', character]
  else if character == '\n' then ['\\', 'n']
  else if character == '\r' then ['\\', 'r']
  else if character == '\t' then ['\\', 't']
  else if isPrintable character then [character]
  else if character.toNat < 0x100 then '\\' :: 'x' :: hexDigits 2 character.toNat
  else if character.toNat < 0x10000 then '\\' :: 'u' :: hexDigits 4 character.toNat
  else '\\' :: 'U' :: hexDigits 8 character.toNat

/-- A word between quotes, with everything escaped that would not show as itself. -/
def quoted (word : String) : String :=
  let characters := word.toList
  let quote := quoteFor characters
  String.ofList (quote :: characters.flatMap (quotedCharacter quote) ++ [quote])

end SpecAudit.Text

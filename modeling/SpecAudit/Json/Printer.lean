import SpecAudit.Json.Basic
import SpecAudit.Json.Numeral
import SpecAudit.Text.Quoted

/-!
# Writing data values

A value is written in ASCII, either on one line or with every item of a list or object on a line
of its own, indented by two spaces a level.  Characters outside printable ASCII are written as
UTF-16 code units.
-/

namespace SpecAudit.Json

open SpecAudit.Text (hexDigits)

/-- One UTF-16 code unit as an escape. -/
def unitEscape (unit : Nat) : List Char :=
  '\\' :: 'u' :: hexDigits 4 unit

/-- One character of a text as it is written between double quotes. -/
def writtenCharacter (character : Char) : List Char :=
  let code := character.toNat
  if character == '"' then ['\\', '"']
  else if character == '\\' then ['\\', '\\']
  else if code == 10 then ['\\', 'n']
  else if code == 13 then ['\\', 'r']
  else if code == 9 then ['\\', 't']
  else if code == 12 then ['\\', 'f']
  else if code == 8 then ['\\', 'b']
  else if 0x20 ≤ code && code ≤ 0x7e then [character]
  else if code < 0x10000 then unitEscape code
  else unitEscape (0xd800 + (code - 0x10000) / 0x400)
    ++ unitEscape (0xdc00 + (code - 0x10000) % 0x400)

/-- A text between double quotes. -/
def writtenText (text : String) : List Char :=
  '"' :: text.toList.flatMap writtenCharacter ++ ['"']

/-- An integer in decimal digits, with a minus sign if it is negative. -/
def writtenInt : Int → List Char
  | .ofNat value => value.repr.toList
  | .negSucc value => '-' :: (value + 1).repr.toList

/-- How the items of a list or object are set out: what stands inside its brackets on either side,
and what stands after each comma, depending on the level. -/
structure Layout where
  /-- What stands after an opening bracket and, one level further out, before the closing one. -/
  edge : Nat → List Char
  /-- What stands after a comma. -/
  gap : Nat → List Char

/-- Everything on one line, with a space after each comma. -/
def Layout.compact : Layout := ⟨fun _ => [], fun _ => [' ']⟩

/-- A new line, indented by two spaces a level. -/
def newLine (level : Nat) : List Char :=
  '\n' :: List.replicate (2 * level) ' '

/-- Every item on a line of its own. -/
def Layout.indented : Layout := ⟨newLine, newLine⟩

mutual

/-- A value written at a level. -/
def written (layout : Layout) (level : Nat) : Json → List Char
  | .null => ['n', 'u', 'l', 'l']
  | .bool true => ['t', 'r', 'u', 'e']
  | .bool false => ['f', 'a', 'l', 's', 'e']
  | .int value => writtenInt value
  | .real value => writtenDouble value
  | .str text => writtenText text
  | .arr [] => ['[', ']']
  | .arr (first :: rest) =>
    '[' :: layout.edge (level + 1) ++ written layout (level + 1) first
      ++ writtenItems layout (level + 1) rest ++ layout.edge level ++ [']']
  | .obj [] => ['\x7b', '\x7d']
  | .obj ((key, first) :: rest) =>
    '\x7b' :: layout.edge (level + 1) ++ writtenText key ++ [':', ' ']
      ++ written layout (level + 1) first ++ writtenFields layout (level + 1) rest
      ++ layout.edge level ++ ['\x7d']

/-- The items after the first one, each behind a comma. -/
def writtenItems (layout : Layout) (level : Nat) : List Json → List Char
  | [] => []
  | item :: rest =>
    ',' :: layout.gap level ++ written layout level item ++ writtenItems layout level rest

/-- The fields after the first one, each behind a comma. -/
def writtenFields (layout : Layout) (level : Nat) : List (String × Json) → List Char
  | [] => []
  | (key, value) :: rest =>
    ',' :: layout.gap level ++ writtenText key ++ [':', ' '] ++ written layout level value
      ++ writtenFields layout level rest

end

/-- A value on one line. -/
def compact (value : Json) : String :=
  String.ofList (written .compact 0 value)

/-- A value with every item on a line of its own. -/
def indented (value : Json) : String :=
  String.ofList (written .indented 0 value)

end SpecAudit.Json

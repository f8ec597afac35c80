import SpecAudit.Json.Basic
import SpecAudit.Json.Numeral

/-!
# Reading data values

Reads one value from a text that holds nothing else but blanks around it.  A number without a point
and a power of ten is an integer of at most `maxDigits` digits, any other number a double.  A name
that stands twice in an object keeps its first place and takes its last value.
-/

namespace SpecAudit.Json

/-- Why a text is not read as a value. -/
inductive ReadError where
  /-- The text does not follow the grammar. -/
  | malformed
  /-- An integer has more digits than are read. -/
  | integerTooLong (digits : Nat)

/-- The most digits that an integer may have. -/
def maxDigits : Nat := 4300

/-- The text that reports a read error. -/
def ReadError.message : ReadError → String
  | .malformed => "malformed value"
  | .integerTooLong digits =>
    s!"Exceeds the limit ({maxDigits} digits) for integer string conversion: "
      ++ s!"value has {digits} digits; use sys.set_int_max_str_digits() to increase the limit"

/-- The blanks that may stand between the parts of a value. -/
def isSpace (character : Char) : Bool :=
  character == ' ' || character == '\t' || character == '\n' || character == '\r'

/-- The text without leading blanks. -/
def skipSpace (characters : List Char) : List Char :=
  characters.dropWhile isSpace

/-- The value of a hexadecimal digit. -/
def hexValue? (character : Char) : Option Nat :=
  let code := character.toNat
  if 48 ≤ code ∧ code ≤ 57 then some (code - 48)
  else if 65 ≤ code ∧ code ≤ 70 then some (code - 55)
  else if 97 ≤ code ∧ code ≤ 102 then some (code - 87)
  else none

/-- The code unit that four hexadecimal digits spell. -/
def unit? (first second third fourth : Char) : Option Nat := do
  let high ← hexValue? first
  let upper ← hexValue? second
  let lower ← hexValue? third
  let low ← hexValue? fourth
  return ((high * 16 + upper) * 16 + lower) * 16 + low

/-- The code that a single letter stands for after a backslash. -/
def letterEscape? : Char → Option Nat
  | '"' => some 34
  | '\\' => some 92
  | '/' => some 47
  | 'b' => some 8
  | 'f' => some 12
  | 'n' => some 10
  | 'r' => some 13
  | 't' => some 9
  | _ => none

/-- The codes of a text up to its closing quote, and what follows the quote. -/
def scanText : List Char → Option (List Nat × List Char)
  | [] => none
  | '"' :: rest => some ([], rest)
  | '\\' :: 'u' :: first :: second :: third :: fourth :: rest => do
    let unit ← unit? first second third fourth
    let (codes, rest) ← scanText rest
    return (unit :: codes, rest)
  | '\\' :: letter :: rest => do
    let code ← letterEscape? letter
    let (codes, rest) ← scanText rest
    return (code :: codes, rest)
  | character :: rest => do
    if character.toNat < 0x20 then none
    let (codes, rest) ← scanText rest
    return (character.toNat :: codes, rest)

/-- The characters of a sequence of codes; a high and a low surrogate are one character. -/
def joinUnits : List Nat → List Char
  | [] => []
  | [code] => [Char.ofNat code]
  | high :: low :: rest =>
    if 0xd800 ≤ high ∧ high < 0xdc00 ∧ 0xdc00 ≤ low ∧ low < 0xe000 then
      Char.ofNat (0x10000 + (high - 0xd800) * 0x400 + (low - 0xdc00)) :: joinUnits rest
    else Char.ofNat high :: joinUnits (low :: rest)

/-- A text after its opening quote. -/
def readText (characters : List Char) : Except ReadError (String × List Char) :=
  match scanText characters with
  | some (codes, rest) => .ok (String.ofList (joinUnits codes), rest)
  | none => .error .malformed

/-- A number behind its sign: an integer if it is whole, and a double if not. -/
def readNumber (negative : Bool) (characters : List Char) : Except ReadError (Json × List Char) :=
  match scanNumeral? characters with
  | none => .error .malformed
  | some (numeral, rest) =>
    if numeral.isWhole then
      if maxDigits < numeral.whole.length then .error (.integerTooLong numeral.whole.length)
      else .ok (.int (signed negative (digitsValue numeral.whole)), rest)
    else .ok (.real (numeral.double negative), rest)

/-- A value that starts with none of the brackets or quotes: a word or a number. -/
def readPlain (characters : List Char) : Except ReadError (Json × List Char) :=
  match characters with
  | 'n' :: 'u' :: 'l' :: 'l' :: rest => .ok (.null, rest)
  | 't' :: 'r' :: 'u' :: 'e' :: rest => .ok (.bool true, rest)
  | 'f' :: 'a' :: 'l' :: 's' :: 'e' :: rest => .ok (.bool false, rest)
  | 'N' :: 'a' :: 'N' :: rest => .ok (.real .nan, rest)
  | 'I' :: 'n' :: 'f' :: 'i' :: 'n' :: 'i' :: 't' :: 'y' :: rest =>
    .ok (.real (.infinite false), rest)
  | '-' :: 'I' :: 'n' :: 'f' :: 'i' :: 'n' :: 'i' :: 't' :: 'y' :: rest =>
    .ok (.real (.infinite true), rest)
  | '-' :: rest => readNumber true rest
  | characters => readNumber false characters

mutual

/-- One value at the start of a text, and what follows it. -/
def readValue : Nat → List Char → Except ReadError (Json × List Char)
  | 0, _ => .error .malformed
  | fuel + 1, characters =>
    match characters with
    | '"' :: rest => do
      let (text, rest) ← readText rest
      return (.str text, rest)
    | '[' :: rest =>
      match skipSpace rest with
      | ']' :: rest => .ok (.arr [], rest)
      | rest => do
        let (items, rest) ← readItems fuel rest
        return (.arr items, rest)
    | '\x7b' :: rest =>
      match skipSpace rest with
      | '\x7d' :: rest => .ok (.obj [], rest)
      | rest => do
        let (fields, rest) ← readFields fuel [] rest
        return (.obj fields, rest)
    | _ => readPlain characters

/-- The items of a list up to its closing bracket. -/
def readItems : Nat → List Char → Except ReadError (List Json × List Char)
  | 0, _ => .error .malformed
  | fuel + 1, characters => do
    let (item, rest) ← readValue fuel characters
    match skipSpace rest with
    | ']' :: rest => return ([item], rest)
    | ',' :: rest => do
      let (items, rest) ← readItems fuel (skipSpace rest)
      return (item :: items, rest)
    | _ => throw .malformed

/-- The fields of an object up to its closing bracket, put after those already read. -/
def readFields : Nat → Fields → List Char → Except ReadError (Fields × List Char)
  | 0, _, _ => .error .malformed
  | fuel + 1, fields, characters =>
    match characters with
    | '"' :: rest => do
      let (key, rest) ← readText rest
      match skipSpace rest with
      | ':' :: rest => do
        let (value, rest) ← readValue fuel (skipSpace rest)
        let fields := fields.put key value
        match skipSpace rest with
        | '\x7d' :: rest => return (fields, rest)
        | ',' :: rest => readFields fuel fields (skipSpace rest)
        | _ => throw .malformed
      | _ => throw .malformed
    | _ => .error .malformed

end

/-- The value that a text holds. -/
def read (text : String) : Except ReadError Json := do
  let characters := skipSpace text.toList
  let (value, rest) ← readValue (2 * characters.length + 2) characters
  if (skipSpace rest).isEmpty then return value else throw .malformed

end SpecAudit.Json

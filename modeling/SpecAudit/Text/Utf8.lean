/-!
# Reading bytes as text

Valid UTF-8 is read as it stands.  In anything else each maximal ill-formed run of bytes becomes
one replacement character, so that every sequence of bytes has a reading.
-/

namespace SpecAudit.Text

/-- The character that stands for bytes that are no part of a well-formed sequence. -/
def replacementCharacter : Char := Char.ofNat 0xfffd

/-- How a leading byte is continued: the range of the byte after it, the number of plain
continuation bytes after that, and the bits it contributes; `none` for a byte that cannot lead. -/
def leadingByte? (byte : Nat) : Option ((Nat × Nat) × Nat × Nat) :=
  if 0xc2 ≤ byte ∧ byte ≤ 0xdf then some ((0x80, 0xbf), 0, byte - 0xc0)
  else if byte = 0xe0 then some ((0xa0, 0xbf), 1, 0)
  else if byte = 0xed then some ((0x80, 0x9f), 1, 13)
  else if 0xe1 ≤ byte ∧ byte ≤ 0xef then some ((0x80, 0xbf), 1, byte - 0xe0)
  else if byte = 0xf0 then some ((0x90, 0xbf), 2, 0)
  else if 0xf1 ≤ byte ∧ byte ≤ 0xf3 then some ((0x80, 0xbf), 2, byte - 0xf0)
  else if byte = 0xf4 then some ((0x80, 0x8f), 2, 4)
  else none

/-- What has been read of a sequence: nothing, or its bits so far together with the range of the
next byte and the number of continuation bytes after that one. -/
inductive Utf8State where
  | between
  | within (bits : Nat) (next : Nat × Nat) (more : Nat)

/-- Begin a character with a byte that does not continue one. -/
def beginCharacter (byte : Nat) : Utf8State × List Char :=
  if byte < 0x80 then (.between, [Char.ofNat byte])
  else
    match leadingByte? byte with
    | some (next, more, bits) => (.within bits next more, [])
    | none => (.between, [replacementCharacter])

/-- Take in one more byte and say which characters are complete. -/
def takeByte (byte : Nat) : Utf8State → Utf8State × List Char
  | .between => beginCharacter byte
  | .within bits (low, high) more =>
    if low ≤ byte ∧ byte ≤ high then
      let total := bits * 64 + (byte - 0x80)
      match more with
      | 0 => (.between, [Char.ofNat total])
      | more + 1 => (.within total (0x80, 0xbf) more, [])
    else
      let (state, characters) := beginCharacter byte
      (state, replacementCharacter :: characters)

/-- The characters of a byte sequence, read from a state. -/
def readFrom : Utf8State → List Nat → List Char
  | .between, [] => []
  | .within _ _ _, [] => [replacementCharacter]
  | state, byte :: rest =>
    let (state, characters) := takeByte byte state
    characters ++ readFrom state rest

/-- The text of a byte sequence, with replacement characters where it is ill-formed. -/
def readBytes (bytes : ByteArray) : String :=
  match String.fromUTF8? bytes with
  | some text => text
  | none => String.ofList (readFrom .between (bytes.toList.map UInt8.toNat))

end SpecAudit.Text

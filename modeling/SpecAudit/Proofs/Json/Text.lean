import SpecAudit.Json.Parser
import SpecAudit.Json.Printer

/-!
# Texts in a written value

A text is read back from its characters, with what follows it: a character
beyond the sixteen-bit codes is written as two units and read as one.
-/

namespace SpecAudit.Json

open SpecAudit.Text (hexDigit hexDigits)

/-! ## Texts -/

section Texts

variable {rest : List Char}

theorem hexValue?_hexDigit (digit : Fin 16) :
    hexValue? (hexDigit digit) = some digit.val := by
  revert digit
  decide

/-- Four digits spell the code unit that they were made of. -/
theorem unit?_hexDigits {unit : Nat} (small : unit < 0x10000) :
    ∃ first second third fourth,
      hexDigits 4 unit = [first, second, third, fourth] ∧
        unit? first second third fourth = some unit := by
  refine ⟨_, _, _, _, rfl, ?_⟩
  have value (number : Nat) :
      hexValue? (hexDigit (number % 16)) = some (number % 16) :=
    hexValue?_hexDigit ⟨number % 16, Nat.mod_lt _ (by decide)⟩
  unfold unit?
  rw [value, value, value, value]
  have sum : ((unit / 16 / 16 / 16 % 16 * 16 + unit / 16 / 16 % 16) * 16
      + unit / 16 % 16) * 16 + unit % 16 = unit := by omega
  exact congrArg some sum

/-- The sixteen-bit units of a character: its code, or two surrogates. -/
def unitsOf (character : Char) : List Nat :=
  if character.toNat < 0x10000 then [character.toNat]
  else [0xd800 + (character.toNat - 0x10000) / 0x400,
    0xdc00 + (character.toNat - 0x10000) % 0x400]

theorem unitsOf_eq_singleton {character : Char} {code : Nat}
    (codes : character.toNat = code) (small : code < 0x10000) :
    unitsOf character = [code] := by
  rw [unitsOf, codes, if_pos small]

/-- What a scan gives when it starts with known codes. -/
def scanAfter (known : List Nat) (rest : List Char) :
    Option (List Nat × List Char) :=
  (scanText rest).map fun (codes, rest) => (known ++ codes, rest)

theorem scanAfter_append (known more : List Nat) :
    (scanAfter more rest).map (fun (codes, rest) => (known ++ codes, rest)) =
      scanAfter (known ++ more) rest := by
  unfold scanAfter
  rw [Option.map_map]
  congr 1
  funext ⟨codes, rest⟩
  simp

theorem scanText_unitEscape {unit : Nat} (small : unit < 0x10000) :
    scanText (unitEscape unit ++ rest) = scanAfter [unit] rest := by
  rcases unit?_hexDigits small with
    ⟨first, second, third, fourth, digits, unit⟩
  rw [unitEscape, digits]
  simp only [List.cons_append, List.nil_append, scanText, unit, scanAfter,
    Option.bind_eq_bind, Option.bind_some]
  cases scanText rest <;> rfl

theorem lt_of_letterEscape? {letter : Char} {code : Nat}
    (stands : letterEscape? letter = some code) : code < 0x80 := by
  unfold letterEscape? at stands
  split at stands <;> cases stands <;> decide

theorem scanText_letterEscape {letter : Char} {code : Nat}
    (stands : letterEscape? letter = some code) :
    scanText ('\\' :: letter :: rest) = scanAfter [code] rest := by
  rw [scanText]
  · rw [stands, scanAfter]
    cases scanText rest <;> rfl
  · rintro _ _ _ _ _ rfl
    contradiction

theorem scanText_plain {character : Char} (notQuote : character ≠ '"')
    (notEscape : character ≠ '\\') (printable : 0x20 ≤ character.toNat) :
    scanText (character :: rest) = scanAfter [character.toNat] rest := by
  rw [scanText]
  · rw [if_neg (Nat.not_lt.mpr printable), scanAfter]
    cases scanText rest <;> rfl
  · exact notQuote
  · intro _ _ _ _ _ same
    contradiction
  · intro _ _ same
    contradiction

/-- A character is written as a letter escape, as it stands, or as its units. -/
theorem writtenCharacter_cases (character : Char) :
    (∃ letter, writtenCharacter character = ['\\', letter] ∧
      letterEscape? letter = some character.toNat) ∨
    (writtenCharacter character = [character] ∧ character ≠ '"' ∧
      character ≠ '\\' ∧ 0x20 ≤ character.toNat ∧ character.toNat < 0x7f) ∨
    writtenCharacter character = (unitsOf character).flatMap unitEscape := by
  have letter {letter : Char} {code : Nat}
      (stands : letterEscape? letter = some code)
      (codes : (character.toNat == code) = true) :
      letterEscape? letter = some character.toNat := by
    rw [eq_of_beq codes, stands]
  fun_cases writtenCharacter character with
  | case1 quote =>
      rw [eq_of_beq quote]
      exact .inl ⟨_, rfl, rfl⟩
  | case2 _ escape =>
      rw [eq_of_beq escape]
      exact .inl ⟨_, rfl, rfl⟩
  | case3 code _ _ codes => exact .inl ⟨_, rfl, letter rfl codes⟩
  | case4 code _ _ _ codes => exact .inl ⟨_, rfl, letter rfl codes⟩
  | case5 code _ _ _ _ codes => exact .inl ⟨_, rfl, letter rfl codes⟩
  | case6 code _ _ _ _ _ codes => exact .inl ⟨_, rfl, letter rfl codes⟩
  | case7 code _ _ _ _ _ _ codes => exact .inl ⟨_, rfl, letter rfl codes⟩
  | case8 code notQuote notEscape _ _ _ _ _ plain =>
      have bounds : 0x20 ≤ code ∧ code ≤ 0x7e := by simpa using plain
      refine .inr (.inl ⟨rfl, ?_, ?_, bounds.1, Nat.lt_succ_of_le bounds.2⟩)
      · simpa using notQuote
      · simpa using notEscape
  | case9 code _ _ _ _ _ _ _ _ small =>
      rw [unitsOf, if_pos small, List.flatMap_singleton]
      exact .inr (.inr rfl)
  | case10 code _ _ _ _ _ _ _ _ large =>
      rw [unitsOf, if_neg large]
      exact .inr (.inr (by simp [code]))

theorem code_lt (character : Char) : character.toNat < 0x110000 := by
  rcases character.valid with small | ⟨-, bound⟩
  · exact Nat.lt_trans small (by decide)
  · exact bound

/-- The units of a character have no more than sixteen bits. -/
theorem unitsOf_lt {character : Char} {unit : Nat}
    (member : unit ∈ unitsOf character) : unit < 0x10000 := by
  have bound := code_lt character
  unfold unitsOf at member
  split at member
  · simp only [List.mem_cons, List.not_mem_nil, or_false] at member
    omega
  · simp only [List.mem_cons, List.not_mem_nil, or_false] at member
    omega

theorem scanText_unitEscapes {units : List Nat}
    (small : ∀ unit ∈ units, unit < 0x10000) :
    scanText (units.flatMap unitEscape ++ rest) = scanAfter units rest := by
  induction units with
  | nil => simp [scanAfter]
  | cons unit units induction =>
      rcases List.forall_mem_cons.mp small with ⟨first, others⟩
      rw [List.flatMap_cons, List.append_assoc, scanText_unitEscape first]
      unfold scanAfter
      rw [induction others]
      exact scanAfter_append [unit] units

/-- A written character is scanned as its units. -/
theorem scanText_writtenCharacter (character : Char) :
    scanText (writtenCharacter character ++ rest) =
      scanAfter (unitsOf character) rest := by
  rcases writtenCharacter_cases character with
    ⟨letter, written, stands⟩ | ⟨written, notQuote, notEscape, low, high⟩ | written
  · have small := Nat.lt_trans (lt_of_letterEscape? stands)
      (show 0x80 < 0x10000 by decide)
    rw [written, unitsOf_eq_singleton rfl small]
    exact scanText_letterEscape stands
  · have small := Nat.lt_trans high (show 0x7f < 0x10000 by decide)
    rw [written, unitsOf_eq_singleton rfl small]
    exact scanText_plain notQuote notEscape low
  · rw [written]
    exact scanText_unitEscapes fun _ member => unitsOf_lt member

theorem scanText_written (characters : List Char) :
    scanText (characters.flatMap writtenCharacter ++ '"' :: rest) =
      some (characters.flatMap unitsOf, rest) := by
  induction characters with
  | nil => rfl
  | cons character characters induction =>
      rw [List.flatMap_cons, List.append_assoc, scanText_writtenCharacter,
        scanAfter, induction]
      rfl

/-- A single unit that is no high surrogate is a character by itself. -/
theorem joinUnits_cons {unit : Nat} (single : unit < 0xd800 ∨ 0xdc00 ≤ unit)
    (units : List Nat) :
    joinUnits (unit :: units) = Char.ofNat unit :: joinUnits units := by
  cases units with
  | nil => rfl
  | cons low units =>
      rw [joinUnits, if_neg (by omega)]

/-- The units of characters are joined to those characters. -/
theorem joinUnits_unitsOf (characters : List Char) :
    joinUnits (characters.flatMap unitsOf) = characters := by
  induction characters with
  | nil => rfl
  | cons character characters induction =>
      rw [List.flatMap_cons, unitsOf]
      split
      · have single : character.toNat < 0xd800 ∨ 0xdc00 ≤ character.toNat := by
          rcases character.valid with small | ⟨large, -⟩
          · exact .inl small
          · exact .inr (Nat.le_of_lt (Nat.lt_trans (by decide) large))
        rw [List.singleton_append, joinUnits_cons single, induction,
          Char.ofNat_toNat]
      · rename_i large
        have bound := code_lt character
        have whole : 0x10000
            + (0xd800 + (character.toNat - 0x10000) / 0x400 - 0xd800) * 0x400
            + (0xdc00 + (character.toNat - 0x10000) % 0x400 - 0xdc00) =
              character.toNat := by omega
        rw [List.cons_append, List.singleton_append, joinUnits,
          if_pos (by omega), whole, induction, Char.ofNat_toNat]

/-- A written text is read back, with what follows it. -/
theorem readText_written (text : String) :
    readText (text.toList.flatMap writtenCharacter ++ '"' :: rest) =
      .ok (text, rest) := by
  rw [readText, scanText_written]
  dsimp only
  rw [joinUnits_unitsOf, String.ofList_toList]

end Texts

end SpecAudit.Json

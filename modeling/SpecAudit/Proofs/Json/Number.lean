import Mathlib.Algebra.GroupWithZero.Nat
import Mathlib.Data.List.TakeWhile
import SpecAudit.Json.Parser
import SpecAudit.Json.Printer

/-!
# Numbers in a written value

A number is read back, with what follows it, where that does not go on with a
character that numbers are spelled with.  An integer is written in its digits.
A decimal is read as a double that is off by half of the distance between
doubles at most.  A double is written in the first of some decimals that is read
as this double, and one of them is: the one in all of its digits, which the
reader need not round.
-/

namespace SpecAudit.Json

/-! ## What follows a number -/

/-- Whether a number may be spelled with a character behind its start. -/
def isNumeric (character : Char) : Bool :=
  character.isDigit || ['.', 'e', 'E', '+', '-'].contains character

/-- Whether a text does not go on with a character of a kind. -/
def Stops (kind : Char → Bool) (rest : List Char) : Prop :=
  rest.head?.all (!kind ·) = true

/-- Whether a text does not go on with a digit. -/
abbrev EndsDigits (rest : List Char) : Prop := Stops Char.isDigit rest

/-- Whether a text does not go on with a character that numbers are spelled
with. -/
abbrev EndsNumber (rest : List Char) : Prop := Stops isNumeric rest

/-- What was scanned, with more text behind what follows it. -/
def before {α : Type} (rest : List Char) (scanned : α × List Char) :
    α × List Char :=
  (scanned.1, scanned.2 ++ rest)

section Starts

variable {characters : List Char}

theorem cons_ne_cons {first other : Char} {others : List Char}
    (different : first ≠ other) (more : List Char) :
    first :: others ≠ other :: more := fun same =>
  different (List.head_eq_of_cons_eq same)

theorem scanWhole?_eq_scanDigits? (other : ∀ rest, characters ≠ '0' :: rest) :
    scanWhole? characters = scanDigits? characters := by
  rw [scanWhole?]
  exact other

theorem scanFraction_eq (other : ∀ rest, characters ≠ '.' :: rest) :
    scanFraction characters = ([], characters) := by
  rw [scanFraction]
  exact other

theorem scanSigned?_eq (notMinus : ∀ rest, characters ≠ '-' :: rest)
    (notPlus : ∀ rest, characters ≠ '+' :: rest) :
    scanSigned? characters = scanBehind? false characters := by
  rw [scanSigned?]
  · exact notMinus
  · exact notPlus

end Starts

section Stops

variable {kind : Char → Bool} {rest : List Char}

theorem stops_cons {first : Char} (apart : kind first = false)
    (others : List Char) : Stops kind (first :: others) := by
  simp [Stops, apart]

theorem Stops.ne_cons {first : Char} (stops : Stops kind rest)
    (isKind : kind first = true) (others : List Char) :
    rest ≠ first :: others := by
  rintro rfl
  simp [Stops, isKind] at stops

theorem EndsNumber.endsDigits (ends : EndsNumber rest) : EndsDigits rest := by
  cases rest with
  | nil => rfl
  | cons first others =>
      apply stops_cons
      apply Bool.eq_false_iff.mpr
      intro isDigit
      exact ends.ne_cons (by rw [isNumeric, isDigit]; rfl) others rfl

end Stops

section Digits

variable {rest : List Char} (ends : EndsDigits rest)

include ends

theorem scanDigits?_append (characters : List Char) :
    scanDigits? (characters ++ rest) =
      (scanDigits? characters).map (before rest) := by
  have stops : rest.takeWhile Char.isDigit = [] ∧
      rest.dropWhile Char.isDigit = rest := by
    cases rest with
    | nil => exact ⟨rfl, rfl⟩
    | cons first others =>
        have notDigit : ¬ first.isDigit = true := fun isDigit =>
          ends.ne_cons isDigit others rfl
        exact ⟨List.takeWhile_cons_of_neg notDigit,
          List.dropWhile_cons_of_neg notDigit⟩
  -- The digits end inside the first text, or with it.
  have split : (characters ++ rest).takeWhile Char.isDigit =
        characters.takeWhile Char.isDigit ∧
      (characters ++ rest).dropWhile Char.isDigit =
        characters.dropWhile Char.isDigit ++ rest := by
    induction characters with
    | nil => exact stops
    | cons first others induction =>
        by_cases isDigit : first.isDigit = true
        · simp [isDigit, induction]
        · simp [isDigit]
  rw [scanDigits?, scanDigits?, split.1, split.2]
  split <;> rfl

theorem scanWhole?_append (characters : List Char) :
    scanWhole? (characters ++ rest) =
      (scanWhole? characters).map (before rest) := by
  cases characters with
  | nil =>
      rw [List.nil_append, scanWhole?_eq_scanDigits? (ends.ne_cons rfl)]
      exact scanDigits?_append ends []
  | cons first others =>
      by_cases zero : first = '0'
      · rw [zero]
        rfl
      · rw [scanWhole?_eq_scanDigits? (cons_ne_cons zero), List.cons_append,
          scanWhole?_eq_scanDigits? (cons_ne_cons zero)]
        exact scanDigits?_append ends (first :: others)

theorem scanBehind?_append (negative : Bool) (characters : List Char) :
    scanBehind? negative (characters ++ rest) =
      (scanBehind? negative characters).map (before rest) := by
  rw [scanBehind?, scanBehind?, scanDigits?_append ends]
  cases scanDigits? characters <;> rfl

end Digits

section Rest

variable {rest : List Char} (ends : EndsNumber rest)

include ends

theorem scanFraction_append (characters : List Char) :
    scanFraction (characters ++ rest) =
      before rest (scanFraction characters) := by
  cases characters with
  | nil => exact scanFraction_eq (ends.ne_cons rfl)
  | cons first others =>
      by_cases point : first = '.'
      · rw [point, List.cons_append, scanFraction, scanFraction,
          scanDigits?_append ends.endsDigits]
        cases scanDigits? others <;> rfl
      · rw [scanFraction_eq (cons_ne_cons point), List.cons_append,
          scanFraction_eq (cons_ne_cons point)]
        rfl

theorem scanSigned?_append (characters : List Char) :
    scanSigned? (characters ++ rest) =
      (scanSigned? characters).map (before rest) := by
  cases characters with
  | nil =>
      rw [List.nil_append,
        scanSigned?_eq (ends.ne_cons rfl) (ends.ne_cons rfl)]
      exact scanBehind?_append ends.endsDigits false []
  | cons first others =>
      by_cases minus : first = '-'
      · rw [minus]
        exact scanBehind?_append ends.endsDigits true others
      by_cases plus : first = '+'
      · rw [plus]
        exact scanBehind?_append ends.endsDigits false others
      rw [scanSigned?_eq (cons_ne_cons minus) (cons_ne_cons plus),
        List.cons_append,
        scanSigned?_eq (cons_ne_cons minus) (cons_ne_cons plus)]
      exact scanBehind?_append ends.endsDigits false (first :: others)

theorem scanPower_append (characters : List Char) :
    scanPower (characters ++ rest) = before rest (scanPower characters) := by
  cases characters with
  | nil =>
      cases rest with
      | nil => rfl
      | cons mark others =>
          have small : mark ≠ 'e' := fun same =>
            ends.ne_cons rfl others (by rw [same])
          have large : mark ≠ 'E' := fun same =>
            ends.ne_cons rfl others (by rw [same])
          exact if_neg (by simp [small, large])
  | cons mark others =>
      rw [List.cons_append, scanPower, scanPower]
      split
      · rw [scanSigned?_append ends]
        cases scanSigned? others <;> rfl
      · rfl

/-- A number is scanned alike with more text behind it. -/
theorem scanNumeral?_append (characters : List Char) :
    scanNumeral? (characters ++ rest) =
      (scanNumeral? characters).map (before rest) := by
  rw [scanNumeral?, scanNumeral?, scanWhole?_append ends.endsDigits]
  cases scanWhole? characters with
  | none => rfl
  | some scanned =>
      simp only [Option.map_some, Option.bind_eq_bind, Option.bind_some, before,
        scanFraction_append ends, scanPower_append ends]
      rfl

/-- A number is read alike with more text behind it. -/
theorem readNumber_append (negative : Bool) (characters : List Char) :
    readNumber negative (characters ++ rest) =
      (readNumber negative characters).map (before rest) := by
  rw [readNumber, readNumber, scanNumeral?_append ends]
  cases scanNumeral? characters with
  | none => rfl
  | some scanned =>
      rcases scanned with ⟨numeral, after⟩
      simp only [Option.map_some, before]
      split
      · split <;> rfl
      · rfl

end Rest

/-! ## Digits -/

section Digits

variable {value : Nat} {digits : List Char}

theorem digitsValue_eq (digits : List Char) :
    digitsValue digits = Nat.ofDigitChars 10 digits 0 := by
  rw [digitsValue, Nat.ofDigitChars_eq_foldl]
  congr 1
  funext total digit
  rw [Nat.mul_comm]
  rfl

theorem digitsValue_toDigits (value : Nat) :
    digitsValue (Nat.toDigits 10 value) = value := by
  rw [digitsValue_eq, Nat.ofDigitChars_ten_toDigits]

theorem digitsValue_lt (all : ∀ digit ∈ digits, digit.isDigit = true) :
    digitsValue digits < 10 ^ digits.length := by
  rw [digitsValue_eq]
  induction digits with
  | nil => simp
  | cons first rest induction =>
      rcases List.forall_mem_cons.mp all with ⟨isDigit, others⟩
      have small : first.toNat - '0'.toNat ≤ 9 := by
        have bounds := (Char.isDigit_iff_toNat.mp isDigit).2
        have nine : '9'.toNat = 57 := rfl
        have zero : '0'.toNat = 48 := rfl
        omega
      have below := induction others
      rw [Nat.ofDigitChars_cons, Nat.ofDigitChars_eq_ofDigitChars_zero,
        List.length_cons, Nat.pow_succ, Nat.mul_zero, Nat.zero_add]
      calc 10 ^ rest.length * (first.toNat - '0'.toNat)
              + Nat.ofDigitChars 10 rest 0
          < 10 ^ rest.length * (first.toNat - '0'.toNat)
              + 10 ^ rest.length := by omega
        _ ≤ 10 ^ rest.length * 9 + 10 ^ rest.length := by
            have scaled := Nat.mul_le_mul_left (10 ^ rest.length) small
            omega
        _ = 10 ^ rest.length * 10 := by omega

theorem isDigit_of_mem_toDigits {digit : Char}
    (member : digit ∈ Nat.toDigits 10 value) : digit.isDigit = true :=
  Nat.isDigit_of_mem_toDigits (by decide) (by decide) member

/-- The digits of a number other than zero do not start with a zero. -/
theorem exists_toDigits_cons (positive : 0 < value) :
    ∃ first others,
      Nat.toDigits 10 value = first :: others ∧ first ≠ '0' := by
  induction value using Nat.strongRecOn with
  | ind value induction =>
      rw [Nat.toDigits_eq_if (by decide)]
      split
      · exact ⟨_, [], rfl, by simp [Nat.ne_of_gt positive]⟩
      · rcases induction (value / 10) (by omega) (by omega) with
          ⟨first, others, digits, other⟩
        rw [digits]
        exact ⟨first, _, rfl, other⟩

theorem scanDigits?_toDigits (value : Nat) :
    scanDigits? (Nat.toDigits 10 value) =
      some (Nat.toDigits 10 value, []) := by
  have all (digit) (member : digit ∈ Nat.toDigits 10 value) :=
    isDigit_of_mem_toDigits member
  rw [scanDigits?, List.takeWhile_eq_self_iff.mpr all,
    List.dropWhile_eq_nil_iff.mpr all, if_neg (by simp)]

/-- The digits of a number are scanned as a whole. -/
theorem scanWhole?_toDigits (value : Nat) :
    scanWhole? (Nat.toDigits 10 value) = some (Nat.toDigits 10 value, []) := by
  rcases Nat.eq_zero_or_pos value with rfl | positive
  · rfl
  · rcases exists_toDigits_cons positive with ⟨first, others, digits, other⟩
    rw [scanWhole?_eq_scanDigits?]
    · exact scanDigits?_toDigits value
    · rw [digits]
      exact cons_ne_cons other

/-- What is scanned as a whole are digits. -/
theorem isDigit_of_scanWhole? {characters rest : List Char}
    (scanned : scanWhole? characters = some (digits, rest)) :
    ∀ digit ∈ digits, digit.isDigit = true := by
  unfold scanWhole? at scanned
  split at scanned
  · cases scanned
    exact List.forall_mem_singleton.mpr rfl
  · unfold scanDigits? at scanned
    dsimp only at scanned
    split at scanned
    · cases scanned
    · cases scanned
      intro digit member
      exact List.mem_takeWhile_imp member

end Digits

/-! ## Integers -/

section Integers

variable {value : Nat} {negative : Bool}

/-- The digits of a number are read as that number, if they are not too many. -/
theorem readNumber_toDigits
    (short : (Nat.toDigits 10 value).length ≤ maxDigits) :
    readNumber negative (Nat.toDigits 10 value) =
      .ok (.int (signed negative value), []) := by
  have scanned : scanNumeral? (Nat.toDigits 10 value) =
      some (⟨Nat.toDigits 10 value, [], none⟩, []) := by
    rw [scanNumeral?, scanWhole?_toDigits]
    rfl
  have isWhole : Numeral.isWhole ⟨Nat.toDigits 10 value, [], none⟩ = true :=
    rfl
  rw [readNumber, scanned]
  dsimp only
  rw [if_pos isWhole, if_neg (Nat.not_lt.mpr short), digitsValue_toDigits]

/-- An integer that is read has no more digits than may be read. -/
theorem length_toDigits_of_readNumber {characters rest : List Char}
    {number : Int}
    (read : readNumber negative characters = .ok (.int number, rest)) :
    (Nat.toDigits 10 number.natAbs).length ≤ maxDigits := by
  unfold readNumber at read
  split at read
  · cases read
  · rename_i numeral after scanned
    split at read
    · split at read
      · cases read
      · rename_i short
        cases read
        rcases Option.bind_eq_some_iff.mp scanned with
          ⟨⟨whole, behind⟩, isWhole, made⟩
        cases made
        have size : (signed negative (digitsValue whole)).natAbs =
            digitsValue whole := by
          cases negative <;> simp [signed]
        dsimp only at short ⊢
        rw [size, Nat.length_toDigits_le_iff (by decide) (by decide)]
        apply lt_of_lt_of_le (digitsValue_lt (isDigit_of_scanWhole? isWhole))
        exact Nat.pow_le_pow_right (by decide) (Nat.not_lt.mp short)
    · cases read

end Integers

/-! ## Doubles -/

section Doubles

variable {negative : Bool} {magnitude : Magnitude}

/-- A rounded quotient is off by half at most. -/
theorem roundedDiv_near (dividend : Nat) {divisor : Nat}
    (positive : 0 < divisor) :
    2 * (Double.roundedDiv dividend divisor * divisor) ≤
        2 * dividend + divisor ∧
      2 * dividend ≤
        2 * (Double.roundedDiv dividend divisor * divisor) + divisor := by
  have whole := Nat.div_add_mod dividend divisor
  have small := Nat.mod_lt dividend positive
  rw [Nat.mul_comm] at whole
  rw [Double.roundedDiv]
  split
  · rw [Nat.add_mul, Nat.one_mul]
    omega
  · omega

/-- The nearest double is off by half of its distance from the next at most. -/
theorem nearestUnits_near (dividend : Nat) {divisor : Nat}
    (positive : 0 < divisor) :
    let step := Double.step (dividend / divisor)
    2 * (Double.nearestUnits dividend divisor * divisor) ≤
        2 * dividend + divisor * step ∧
      2 * dividend ≤
        2 * (Double.nearestUnits dividend divisor * divisor)
          + divisor * step := by
  intro step
  have apart : 0 < divisor * step := Nat.mul_pos positive (Nat.two_pow_pos _)
  have near := roundedDiv_near dividend apart
  have units : Double.nearestUnits dividend divisor * divisor =
      Double.roundedDiv dividend (divisor * step) * (divisor * step) := by
    rw [Double.nearestUnits, Nat.mul_right_comm, Nat.mul_comm step,
      Nat.mul_comm]
  rw [units]
  exact near

/-- A magnitude is the nearest one to itself, however it is expanded. -/
theorem nearestUnits_mul (magnitude : Magnitude) {divisor : Nat}
    (positive : 0 < divisor) :
    Double.nearestUnits (magnitude.units * divisor) divisor =
      magnitude.units := by
  rcases magnitude with ⟨units, onGrid, small⟩
  dsimp only
  rw [Double.nearestUnits, Nat.mul_div_cancel _ positive]
  rcases onGrid with ⟨mantissa, product⟩
  have apart : 0 < divisor * Double.step units :=
    Nat.mul_pos positive (Nat.two_pow_pos _)
  have expanded : units * divisor =
      mantissa * (divisor * Double.step units) := by
    calc units * divisor = Double.step units * mantissa * divisor := by
          rw [← product]
      _ = mantissa * (divisor * Double.step units) := by ac_rfl
  rw [expanded, Double.roundedDiv, Nat.mul_div_cancel _ apart,
    Nat.mul_mod_left, if_neg (by omega), ← product]

theorem ofUnits_eq {dividend divisor : Nat}
    (same : Double.nearestUnits dividend divisor = magnitude.units) :
    Double.ofUnits negative dividend divisor = .finite negative magnitude := by
  rcases magnitude with ⟨units, onGrid, small⟩
  dsimp only at same
  subst same
  exact dif_pos small

/-- A magnitude in all of its digits stands for itself. -/
theorem ofDecimal_exact (positive : 0 < magnitude.units) :
    Double.ofDecimal negative (magnitude.units * Nat.pow 5 Double.places)
      (-(Double.places : Int)) = .finite negative magnitude := by
  have powers {base : Nat} (large : 0 < base) (power : Nat) :
      0 < Nat.pow base power :=
    Nat.pow_pos large
  have nonzero : magnitude.units * Nat.pow 5 Double.places ≠ 0 :=
    Nat.ne_of_gt (Nat.mul_pos positive (powers (by decide) _))
  -- A unit is one in this binary place, and so a power of five in the decimal
  -- place: the quotient that is rounded is the number of units itself.
  have scaled : magnitude.units * Nat.pow 5 Double.places
        * Nat.pow 10 (-(Double.places : Int)).toNat * Nat.pow 2 Double.places =
      magnitude.units * Nat.pow 10 Double.places := by
    have ten (power : Nat) :
        Nat.pow 10 power = Nat.pow 5 power * Nat.pow 2 power :=
      Nat.mul_pow 5 2 power
    have one : Nat.pow 10 0 = 1 := rfl
    rw [Int.toNat_neg_natCast, one, Nat.mul_one, ten, Nat.mul_assoc]
  have places : Double.places = 1074 := rfl
  rw [Double.ofDecimal, if_neg nonzero, if_neg (by omega), if_neg (by omega),
    scaled, Int.neg_neg, Int.toNat_natCast]
  exact ofUnits_eq (nearestUnits_mul magnitude (powers (by decide) _))

theorem scanNumeral?_exactDecimal (units : Nat) :
    scanNumeral? (exactDecimal units) =
      some (⟨Nat.toDigits 10 (units * Nat.pow 5 Double.places), [],
        some (-(Double.places : Int))⟩, []) := by
  have ends (behind : List Char) : EndsDigits ('e' :: behind) := rfl
  have power : scanPower ('e' :: '-' :: Nat.toDigits 10 Double.places) =
      (some (-(Double.places : Int)), []) := by
    have scanned : scanSigned? ('-' :: Nat.toDigits 10 Double.places) =
        some (-(Double.places : Int), []) := by
      rw [scanSigned?, scanBehind?, scanDigits?_toDigits, Option.map_some]
      dsimp only
      rw [digitsValue_toDigits]
      rfl
    have mark : ('e' == 'e' || 'e' == 'E') = true := rfl
    rw [scanPower, if_pos mark, scanned]
  have noFraction (behind : List Char) :
      scanFraction ('e' :: behind) = ([], 'e' :: behind) := rfl
  rw [exactDecimal, scanNumeral?, scanWhole?_append (ends _),
    scanWhole?_toDigits]
  simp only [Option.map_some, Option.bind_eq_bind, Option.bind_some, before,
    List.nil_append, noFraction, power]
  rfl

theorem spells_exactDecimal (positive : 0 < magnitude.units) :
    spells negative (.finite negative magnitude)
      (exactDecimal magnitude.units) = true := by
  have double : Numeral.double negative
      ⟨Nat.toDigits 10 (magnitude.units * Nat.pow 5 Double.places), [],
        some (-(Double.places : Int))⟩ = .finite negative magnitude := by
    rw [Numeral.double, List.append_nil, digitsValue_toDigits]
    exact ofDecimal_exact positive
  rw [spells, scanNumeral?_exactDecimal]
  dsimp only
  rw [double, beq_self_eq_true]
  rfl

theorem spells_zero (zero : magnitude.units = 0) :
    spells negative (.finite negative magnitude) ['0', '.', '0'] = true := by
  have scanned : scanNumeral? ['0', '.', '0'] =
      some (⟨['0'], ['0'], none⟩, []) := rfl
  have double : Numeral.double negative ⟨['0'], ['0'], none⟩ =
      .finite negative magnitude := by
    have same := nearestUnits_mul magnitude Nat.one_pos
    rw [Nat.mul_one] at same
    have value : digitsValue ['0', '0'] = 0 := rfl
    rw [Numeral.double, List.singleton_append, value, Double.ofDecimal,
      if_pos rfl, ← zero]
    exact ofUnits_eq same
  rw [spells, scanned]
  dsimp only
  rw [double, beq_self_eq_true]
  rfl

/-- What is found among items, or else taken without search, passes the test. -/
theorem find?_getD {Item : Type} {test : Item → Bool} {last : Item}
    (passes : test last = true) (items : List Item) :
    test ((items.find? test).getD last) = true := by
  cases found : items.find? test with
  | none => exact passes
  | some item => exact List.find?_some found

/-- A written magnitude spells its double. -/
theorem spells_writtenMagnitude (negative : Bool) (magnitude : Magnitude) :
    spells negative (.finite negative magnitude)
      (writtenMagnitude negative magnitude) = true := by
  rw [writtenMagnitude]
  split
  · exact spells_zero ‹_›
  · exact find?_getD (spells_exactDecimal (Nat.pos_of_ne_zero ‹_›)) _

theorem readNumber_of_spells {double : Double} {text : List Char}
    (spelled : spells negative double text = true) :
    readNumber negative text = .ok (.real double, []) := by
  unfold spells at spelled
  split at spelled
  · rename_i numeral scanned
    rw [Bool.and_eq_true, Bool.not_eq_true', beq_iff_eq] at spelled
    rw [readNumber, scanned]
    dsimp only
    rw [if_neg (by simp [spelled.1]), spelled.2]
  · cases spelled

end Doubles

/-! ## Written numbers -/

section Written

/-- Whether a text is read as a number behind its sign. -/
def IsReadAs (text : List Char) (value : Json) : Prop :=
  readNumber false text = .ok (value, []) ∨
    ∃ others, text = '-' :: others ∧ readNumber true others = .ok (value, [])

/-- An integer is written as it is read. -/
theorem isReadAs_writtenInt {value : Int}
    (short : (Nat.toDigits 10 value.natAbs).length ≤ maxDigits) :
    IsReadAs (writtenInt value) (.int value) := by
  cases value with
  | ofNat value =>
      rw [writtenInt, Nat.toList_repr]
      exact .inl (readNumber_toDigits short)
  | negSucc value =>
      rw [writtenInt, Nat.toList_repr]
      exact .inr ⟨_, rfl, readNumber_toDigits short⟩

theorem isReadAs_finite (negative : Bool) (magnitude : Magnitude) :
    IsReadAs (writtenDouble (.finite negative magnitude))
      (.real (.finite negative magnitude)) := by
  cases negative with
  | false => exact .inl (readNumber_of_spells (spells_writtenMagnitude _ _))
  | true =>
      exact .inr ⟨_, rfl, readNumber_of_spells (spells_writtenMagnitude _ _)⟩

variable {text rest : List Char} {value : Json}

/-- A number that is read starts with a digit. -/
theorem exists_digit_of_readNumber {negative : Bool}
    (read : readNumber negative text = .ok (value, rest)) :
    ∃ first others, text = first :: others ∧ first.isDigit = true := by
  cases text with
  | nil => cases read
  | cons first others =>
      refine ⟨first, others, rfl, ?_⟩
      by_contra notDigit
      have apart : first ≠ '0' := by
        rintro rfl
        exact notDigit rfl
      have scanned : scanNumeral? (first :: others) = none := by
        rw [scanNumeral?, scanWhole?_eq_scanDigits? (cons_ne_cons apart),
          scanDigits?, List.takeWhile_cons_of_neg notDigit]
        rfl
      rw [readNumber, scanned] at read
      cases read

theorem ne_of_isDigit {digit other : Char} (isDigit : digit.isDigit = true)
    (notDigit : other.isDigit = false) : digit ≠ other := by
  rintro rfl
  rw [isDigit] at notDigit
  contradiction

/-- Whether a written number may start with a character. -/
def startsNumber (character : Char) : Bool :=
  character.isDigit || ['-', 'N', 'I'].contains character

theorem startsNumber_of_isDigit {digit : Char}
    (isDigit : digit.isDigit = true) : startsNumber digit = true := by
  rw [startsNumber, isDigit]
  rfl

/-- An integer is written as a minus sign or a digit, and more digits. -/
theorem exists_writtenInt_cons (value : Int) :
    ∃ first others, writtenInt value = first :: others ∧
      startsNumber first = true := by
  cases value with
  | ofNat value =>
      cases digits : Nat.toDigits 10 value with
      | nil => exact absurd digits Nat.toDigits_ne_nil
      | cons first others =>
          rw [writtenInt, Nat.toList_repr]
          have isDigit : first.isDigit = true :=
            isDigit_of_mem_toDigits (digits ▸ List.mem_cons_self)
          exact ⟨first, others, digits, startsNumber_of_isDigit isDigit⟩
  | negSucc value => exact ⟨_, _, rfl, rfl⟩

theorem exists_writtenDouble_cons (double : Double) :
    ∃ first others, writtenDouble double = first :: others ∧
      startsNumber first = true := by
  cases double with
  | nan => exact ⟨_, _, rfl, rfl⟩
  | infinite negative => cases negative <;> exact ⟨_, _, rfl, rfl⟩
  | finite negative magnitude =>
      cases negative with
      | true => exact ⟨_, _, rfl, rfl⟩
      | false =>
          have read :=
            readNumber_of_spells (spells_writtenMagnitude false magnitude)
          rcases exists_digit_of_readNumber read with
            ⟨first, others, written, isDigit⟩
          exact ⟨first, others, written, startsNumber_of_isDigit isDigit⟩

/-- A number is read, with what follows it. -/
theorem IsReadAs.readPlain_append (reads : IsReadAs text value)
    (ends : EndsNumber rest) :
    readPlain (text ++ rest) = .ok (value, rest) := by
  have back {negative : Bool} {digits : List Char}
      (read : readNumber negative digits = .ok (value, [])) :
      readNumber negative (digits ++ rest) = .ok (value, rest) := by
    rw [readNumber_append ends, read]
    rfl
  rcases reads with read | ⟨digits, rfl, read⟩
  · rcases exists_digit_of_readNumber read with ⟨first, others, rfl, isDigit⟩
    have other {character : Char} (notDigit : character.isDigit = false)
        (tail : List Char) : first :: others ++ rest ≠ character :: tail :=
      cons_ne_cons (ne_of_isDigit isDigit notDigit) tail
    rw [readPlain, back read]
    all_goals exact fun _ => other rfl _
  · rcases exists_digit_of_readNumber read with ⟨first, others, rfl, isDigit⟩
    rw [List.cons_append, readPlain, back read]
    intro tail same
    exact ne_of_isDigit isDigit (by decide)
      (List.head_eq_of_cons_eq same)

/-- A written double is read, with what follows it. -/
theorem readPlain_writtenDouble (double : Double) (ends : EndsNumber rest) :
    readPlain (writtenDouble double ++ rest) = .ok (.real double, rest) := by
  cases double with
  | nan => rfl
  | infinite negative => cases negative <;> rfl
  | finite negative magnitude =>
      exact (isReadAs_finite negative magnitude).readPlain_append ends

end Written

end SpecAudit.Json

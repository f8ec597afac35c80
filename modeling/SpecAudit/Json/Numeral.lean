import SpecAudit.Json.Double

/-!
# Numbers in digits

A number is spelled by digits, by digits behind a point and by a power of ten; without the latter
two it is an integer.  A double is written with the fewest digits that spell it, in positions
around the point unless that takes many zeros.
-/

namespace SpecAudit.Json

/-- A number as it is spelled; without digits behind a point and without a power it is whole. -/
structure Numeral where
  whole : List Char
  fraction : List Char
  power? : Option Int

/-! ## Scanning -/

/-- The value of decimal digits. -/
def digitsValue (digits : List Char) : Nat :=
  digits.foldl (fun total digit => total * 10 + (digit.toNat - 48)) 0

/-- The digits at the start of a text, if there are any, and what follows them. -/
def scanDigits? (characters : List Char) : Option (List Char × List Char) :=
  let digits := characters.takeWhile Char.isDigit
  if digits.isEmpty then none else some (digits, characters.dropWhile Char.isDigit)

/-- The digits before a point: a zero, or digits that do not start with a zero. -/
def scanWhole? : List Char → Option (List Char × List Char)
  | '0' :: rest => some (['0'], rest)
  | characters => scanDigits? characters

/-- A point with digits behind it, if there is one. -/
def scanFraction : List Char → List Char × List Char
  | '.' :: rest => (scanDigits? rest).getD ([], '.' :: rest)
  | characters => ([], characters)

/-- The number in digits behind a sign that was read, and what follows it. -/
def scanBehind? (negative : Bool) (characters : List Char) : Option (Int × List Char) :=
  (scanDigits? characters).map fun (digits, rest) => (signed negative (digitsValue digits), rest)

/-- The number in digits behind a sign, which may be left out. -/
def scanSigned? : List Char → Option (Int × List Char)
  | '-' :: rest => scanBehind? true rest
  | '+' :: rest => scanBehind? false rest
  | characters => scanBehind? false characters

/-- A power of ten behind its mark, if there is one. -/
def scanPower : List Char → Option Int × List Char
  | [] => (none, [])
  | mark :: rest =>
    if mark == 'e' || mark == 'E' then
      match scanSigned? rest with
      | some (power, after) => (some power, after)
      | none => (none, mark :: rest)
    else (none, mark :: rest)

/-- The number at the start of a text, and what follows it. -/
def scanNumeral? (characters : List Char) : Option (Numeral × List Char) := do
  let (whole, rest) ← scanWhole? characters
  let (fraction, rest) := scanFraction rest
  let (power?, rest) := scanPower rest
  return (⟨whole, fraction, power?⟩, rest)

namespace Numeral

/-- Whether a number has neither digits behind a point nor a power of ten. -/
def isWhole (numeral : Numeral) : Bool :=
  numeral.fraction.isEmpty && numeral.power?.isNone

/-- The double that a number with a sign stands for. -/
def double (negative : Bool) (numeral : Numeral) : Double :=
  .ofDecimal negative (digitsValue (numeral.whole ++ numeral.fraction))
    (numeral.power?.getD 0 - numeral.fraction.length)

end Numeral

/-- Whether a text spells a double behind its sign. -/
def spells (negative : Bool) (double : Double) (text : List Char) : Bool :=
  match scanNumeral? text with
  | some (numeral, []) => !numeral.isWhole && numeral.double negative == double
  | _ => false

/-! ## Writing -/

/-- Digits with a point, which stands behind so many of them or before so many zeros. -/
def pointed (digits : List Char) (point : Int) : List Char :=
  if point ≤ 0 then '0' :: '.' :: List.replicate (-point).toNat '0' ++ digits
  else if digits.length ≤ point.toNat then
    digits ++ List.replicate (point.toNat - digits.length) '0' ++ ['.', '0']
  else digits.take point.toNat ++ '.' :: digits.drop point.toNat

/-- Digits with a point behind the first one, and the power of ten, in two digits or more. -/
def scientific (digits : List Char) (point : Int) : List Char :=
  let power := point - 1
  let shown := Nat.toDigits 10 power.natAbs
  digits.take 1 ++ (if digits.length ≤ 1 then [] else '.' :: digits.drop 1)
    ++ 'e' :: (if power < 0 then '-' else '+') :: List.replicate (2 - shown.length) '0' ++ shown

/-- A number times a power of ten, without zeros at the end that say nothing. -/
def decimal (number : Nat) (power : Int) : List Char :=
  let digits := Nat.toDigits 10 number
  let point := digits.length + power
  let shown := (digits.reverse.dropWhile (· == '0')).reverse
  if -4 < point ∧ point ≤ 16 then pointed shown point else scientific shown point

/-- A number to so many digits: the nearest one and the one on the other side of it. -/
def cutTo (number kept : Nat) (power : Int) : List (List Char) :=
  let cut := (Nat.toDigits 10 number).length - kept
  let nearest := Double.roundedDiv number (Nat.pow 10 cut)
  let other := if nearest * Nat.pow 10 cut ≤ number then nearest + 1 else nearest - 1
  [decimal nearest (power + cut), decimal other (power + cut)]

/-- A magnitude in all of its digits: a unit is a power of five, in decimal places. -/
def exactDecimal (units : Nat) : List Char :=
  Nat.toDigits 10 (units * Nat.pow 5 Double.places) ++ 'e' :: '-' :: Nat.toDigits 10 Double.places

/-- A magnitude cut to one digit, to two, and so on; seventeen are enough to tell it apart. -/
def shorterDecimals (units : Nat) : List (List Char) :=
  (List.range 17).flatMap fun less =>
    cutTo (units * Nat.pow 5 Double.places) (less + 1) (-Double.places)

/-- A magnitude in the fewest digits that spell it. -/
def writtenMagnitude (negative : Bool) (magnitude : Magnitude) : List Char :=
  if magnitude.units = 0 then ['0', '.', '0']
  else
    ((shorterDecimals magnitude.units).find? (spells negative (.finite negative magnitude))).getD
      (exactDecimal magnitude.units)

/-- A double as it is written. -/
def writtenDouble : Double → List Char
  | .nan => ['N', 'a', 'N']
  | .infinite false => ['I', 'n', 'f', 'i', 'n', 'i', 't', 'y']
  | .infinite true => ['-', 'I', 'n', 'f', 'i', 'n', 'i', 't', 'y']
  | .finite false magnitude => writtenMagnitude false magnitude
  | .finite true magnitude => '-' :: writtenMagnitude true magnitude

/-- A double as it is shown in a line of text. -/
def shownDouble : Double → String
  | .nan => "nan"
  | .infinite false => "inf"
  | .infinite true => "-inf"
  | double => String.ofList (writtenDouble double)

end SpecAudit.Json

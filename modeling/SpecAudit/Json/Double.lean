/-!
# Double-precision numbers

A double is no number, an infinity of either sign, or a signed multiple of the smallest positive
double.  How many units it has takes at most 53 binary digits, not counting zeros at the end.  A
decimal number stands for the nearest double, and for the one with an even last digit if two are
equally near.  The main statement is `step_dvd_nearestUnits`.
-/

namespace SpecAudit

namespace Double

/-- The smallest positive double, the unit, has its one digit in this binary place. -/
def places : Nat := 1074

/-- How many units doubles are apart where they have that many units. -/
def step (units : Nat) : Nat := Nat.pow 2 (units.log2 - 52)

/-- The number of units from which on a double is infinite. -/
def limit : Nat := Nat.pow 2 2098

end Double

/-- How far a finite double is from zero, in units. -/
structure Magnitude where
  units : Nat
  onGrid : Double.step units ∣ units
  small : units < Double.limit
  deriving DecidableEq

/-- No number, an infinity, or a finite number; zero has a sign too. -/
inductive Double where
  | nan
  | infinite (negative : Bool)
  | finite (negative : Bool) (magnitude : Magnitude)
  deriving DecidableEq

/-- A natural number with a sign. -/
def signed (negative : Bool) (number : Nat) : Int :=
  if negative then -(number : Int) else number

namespace Double

/-! ## Rounding -/

/-- A quotient rounded to the nearest number, and to the even one if two are equally near. -/
def roundedDiv (dividend divisor : Nat) : Nat :=
  let quotient := dividend / divisor
  let twice := 2 * (dividend % divisor)
  if divisor < twice ∨ twice = divisor ∧ quotient % 2 = 1 then quotient + 1 else quotient

theorem roundedDiv_le (dividend divisor : Nat) :
    roundedDiv dividend divisor ≤ dividend / divisor + 1 := by
  rw [roundedDiv]
  split <;> omega

/-- The number of units of the double nearest to a quotient. -/
def nearestUnits (dividend divisor : Nat) : Nat :=
  let step := step (dividend / divisor)
  step * roundedDiv dividend (divisor * step)

theorem step_dvd_of_lt {mantissa : Nat} (power : Nat) (short : mantissa < Nat.pow 2 53) :
    step (Nat.pow 2 power * mantissa) ∣ Nat.pow 2 power * mantissa := by
  rcases Nat.eq_zero_or_pos mantissa with rfl | positive
  · exact ⟨0, rfl⟩
  have nonzero : Nat.pow 2 power * mantissa ≠ 0 :=
    Nat.ne_of_gt (Nat.mul_pos (Nat.two_pow_pos power) positive)
  have bound : Nat.pow 2 power * mantissa < Nat.pow 2 (power + 53) :=
    calc Nat.pow 2 power * mantissa
        < Nat.pow 2 power * Nat.pow 2 53 :=
          Nat.mul_lt_mul_of_pos_left short (Nat.two_pow_pos power)
      _ = Nat.pow 2 (power + 53) := (Nat.pow_add 2 power 53).symm
  have log : (Nat.pow 2 power * mantissa).log2 < power + 53 := (Nat.log2_lt nonzero).2 bound
  exact Nat.dvd_trans (Nat.pow_dvd_pow 2 (by omega)) (Nat.dvd_mul_right _ _)

/-- With up to 53 binary digits before its zeros a number of units is that of a double. -/
theorem step_dvd_of_le {mantissa : Nat} (power : Nat) (short : mantissa ≤ Nat.pow 2 53) :
    step (Nat.pow 2 power * mantissa) ∣ Nat.pow 2 power * mantissa := by
  rcases Nat.lt_or_eq_of_le short with below | rfl
  · exact step_dvd_of_lt power below
  -- the one mantissa with another digit is a power of two itself
  · have product : Nat.pow 2 power * Nat.pow 2 53 = Nat.pow 2 (power + 53) * 1 :=
      (Nat.pow_add 2 power 53).symm.trans (Nat.mul_one _).symm
    rw [product]
    exact step_dvd_of_lt (power + 53) (by decide)

theorem step_dvd_nearestUnits (dividend divisor : Nat) :
    step (nearestUnits dividend divisor) ∣ nearestUnits dividend divisor := by
  apply step_dvd_of_le
  refine Nat.le_trans (roundedDiv_le _ _) (Nat.succ_le_of_lt ?_)
  rw [← Nat.div_div_eq_div_mul]
  generalize dividend / divisor = quotient
  apply Nat.div_lt_of_lt_mul
  rcases Nat.eq_zero_or_pos quotient with rfl | positive
  · exact Nat.mul_pos (Nat.two_pow_pos _) (Nat.two_pow_pos _)
  have bound : quotient < Nat.pow 2 (quotient.log2 - 52 + 53) :=
    (Nat.log2_lt (Nat.ne_of_gt positive)).1 (by omega)
  exact Nat.lt_of_lt_of_eq bound (Nat.pow_add 2 _ 53)

/-- The double nearest to a quotient of units. -/
def ofUnits (negative : Bool) (dividend divisor : Nat) : Double :=
  if small : nearestUnits dividend divisor < limit then
    .finite negative ⟨nearestUnits dividend divisor, step_dvd_nearestUnits _ _, small⟩
  else .infinite negative

/-- The double nearest to a number times a power of ten.  Powers that take every number beyond
the largest double or below half a unit are not worked out. -/
def ofDecimal (negative : Bool) (number : Nat) (power : Int) : Double :=
  if number = 0 then ofUnits negative 0 1
  else if 400 < power then .infinite negative
  else if power < -((number.log2 + 1100 : Nat) : Int) then ofUnits negative 0 1
  else ofUnits negative (number * Nat.pow 10 power.toNat * Nat.pow 2 places)
      (Nat.pow 10 (-power).toNat)

/-! ## Values -/

/-- The integer that a double is, if it is one. -/
def integer? : Double → Option Int
  | .finite negative magnitude =>
    if magnitude.units % Nat.pow 2 places = 0 then
      some (signed negative (magnitude.units / Nat.pow 2 places))
    else none
  | _ => none

/-- Whether a double is a zero. -/
def isZero : Double → Bool
  | .finite _ magnitude => magnitude.units == 0
  | _ => false

/-- The double nearest to the successor of a double. -/
def successor : Double → Double
  | .finite negative magnitude =>
    let units := signed negative magnitude.units + Nat.pow 2 places
    ofUnits (decide (units < 0)) units.natAbs 1
  | double => double

end Double

end SpecAudit

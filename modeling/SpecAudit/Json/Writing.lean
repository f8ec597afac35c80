import SpecAudit.Json.Parser
import SpecAudit.Json.Printer

/-!
# Values that are too long to be written

An integer with more digits than are read is not written either, and no value is written that has
one inside it.
-/

namespace SpecAudit.Json

/-- Why a value is not written. -/
inductive WriteError where
  /-- An integer has more digits than are written. -/
  | integerTooLong

/-- The text that reports why a value is not written. -/
def WriteError.message : WriteError → String
  | .integerTooLong =>
    s!"Exceeds the limit ({maxDigits} digits) for integer string conversion; "
      ++ "use sys.set_int_max_str_digits() to increase the limit"

/-- How many decimal digits an integer has, its sign not counted. -/
def digitCount (value : Int) : Nat :=
  (Nat.toDigits 10 value.natAbs).length

mutual

/-- The integers in a value, at any depth. -/
def integers : Json → List Int
  | .int value => [value]
  | .arr items => integersOf items
  | .obj fields => integersOfFields fields
  | _ => []

/-- The integers in the items of a list. -/
def integersOf : List Json → List Int
  | [] => []
  | item :: rest => integers item ++ integersOf rest

/-- The integers in named values. -/
def integersOfFields : List (String × Json) → List Int
  | [] => []
  | (_, value) :: rest => integers value ++ integersOfFields rest

end

/-- The text of a value with every item on a line of its own. -/
def write (value : Json) : Except WriteError String :=
  if value.integers.all fun number => digitCount number ≤ maxDigits then .ok value.indented
  else .error .integerTooLong

end SpecAudit.Json

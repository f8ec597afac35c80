import SpecAudit.Json.Writing
import SpecAudit.Proofs.Json.RoundTrip

/-!
# Values that are written

A value whose names can be told apart is written exactly if a text can hold it:
what keeps it from being written is an integer with too many digits.
-/

namespace SpecAudit.Json

/-- Whether no name stands twice in an object, at any depth. -/
inductive HasDistinctNames : Json → Prop
  | null : HasDistinctNames .null
  | bool (value : Bool) : HasDistinctNames (.bool value)
  | int (value : Int) : HasDistinctNames (.int value)
  | real (value : Double) : HasDistinctNames (.real value)
  | str (text : String) : HasDistinctNames (.str text)
  | arr (items : List Json) (inner : ∀ item ∈ items, item.HasDistinctNames) :
      HasDistinctNames (.arr items)
  | obj (fields : Fields) (distinct : fields.keys.Nodup)
      (inner : ∀ field ∈ fields, field.2.HasDistinctNames) :
      HasDistinctNames (.obj fields)

/-- Whether an integer has no more digits than are read and written. -/
def IsShort (number : Int) : Prop :=
  digitCount number ≤ maxDigits

theorem integersOf_eq_flatMap (items : List Json) :
    integersOf items = items.flatMap integers := by
  induction items with
  | nil => rfl
  | cons first items induction =>
      rw [integersOf, induction, List.flatMap_cons]

theorem integersOfFields_eq_flatMap (fields : Fields) :
    integersOfFields fields = fields.flatMap (·.2.integers) := by
  induction fields with
  | nil => rfl
  | cons first fields induction =>
      rw [integersOfFields, induction, List.flatMap_cons]

variable {value : Json} {text : String}

/-- The integers in a value that a text can hold are short. -/
theorem Readable.isShort (readable : value.Readable) :
    ∀ number ∈ value.integers, IsShort number := by
  induction readable with
  | int value short =>
      intro number member
      rw [List.mem_singleton.mp member]
      exact short
  | arr items inner induction =>
      intro number member
      rw [integers, integersOf_eq_flatMap] at member
      rcases List.mem_flatMap.mp member with ⟨item, listed, member⟩
      exact induction item listed number member
  | obj fields distinct inner induction =>
      intro number member
      rw [integers, integersOfFields_eq_flatMap] at member
      rcases List.mem_flatMap.mp member with ⟨field, listed, member⟩
      exact induction field listed number member
  | _ => simp [integers]

theorem Readable.hasDistinctNames (readable : value.Readable) :
    value.HasDistinctNames := by
  induction readable with
  | null => exact .null
  | bool value => exact .bool value
  | int value short => exact .int value
  | real value => exact .real value
  | str text => exact .str text
  | arr items inner induction => exact .arr items induction
  | obj fields distinct inner induction => exact .obj fields distinct induction

theorem HasDistinctNames.readable (distinct : value.HasDistinctNames)
    (short : ∀ number ∈ value.integers, IsShort number) : value.Readable := by
  induction distinct with
  | null => exact .null
  | bool value => exact .bool value
  | int value => exact .int value (short value (List.mem_singleton_self value))
  | real value => exact .real value
  | str text => exact .str text
  | arr items inner induction =>
      rw [integers, integersOf_eq_flatMap] at short
      refine .arr items fun item listed => induction item listed ?_
      intro number member
      exact short number (List.mem_flatMap.mpr ⟨item, listed, member⟩)
  | obj fields distinct inner induction =>
      rw [integers, integersOfFields_eq_flatMap] at short
      refine .obj fields distinct fun field listed => induction field listed ?_
      intro number member
      exact short number (List.mem_flatMap.mpr ⟨field, listed, member⟩)

theorem write_of_isShort (short : ∀ number ∈ value.integers, IsShort number) :
    value.write = .ok value.indented :=
  if_pos (by simpa [IsShort] using short)

/-- A value is written as it is set out, unless an integer in it is too long. -/
theorem write_cases (value : Json) :
    (value.write = .ok value.indented ∧
        ∀ number ∈ value.integers, IsShort number) ∨
      (value.write = .error .integerTooLong ∧
        ∃ number ∈ value.integers, ¬ IsShort number) := by
  by_cases short : ∀ number ∈ value.integers, IsShort number
  · exact .inl ⟨write_of_isShort short, short⟩
  · right
    refine ⟨if_neg (by simpa [IsShort] using short), ?_⟩
    simpa [IsShort] using short

end SpecAudit.Json

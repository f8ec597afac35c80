import SpecAudit.Json.Double

/-!
# Data values

The values a configuration file or a report is made of.  An object keeps its fields in the order
in which they were first put; putting a field again changes its value and not its place.  The
main statements are `Json.same_iff_eq`, `Fields.get?_put_same` and `Fields.get?_put_other`.
-/

namespace SpecAudit

/-- Null, a truth value, an integer, a double, a text, a list of values, or named values in their
order. -/
inductive Json where
  | null
  | bool (value : Bool)
  | int (value : Int)
  | real (value : Double)
  | str (text : String)
  | arr (items : List Json)
  | obj (fields : List (String × Json))
  deriving Inhabited

/-- Named values in the order in which their names were first put. -/
abbrev Fields := List (String × Json)

namespace Json

mutual

/-- Equality of values; objects are compared with the order of their fields. -/
def same : Json → Json → Bool
  | .null, .null => true
  | .bool left, .bool right => left == right
  | .int left, .int right => left == right
  | .real left, .real right => left == right
  | .str left, .str right => left == right
  | .arr left, .arr right => sameItems left right
  | .obj left, .obj right => sameFields left right
  | _, _ => false

/-- Equality of two lists of values. -/
def sameItems : List Json → List Json → Bool
  | [], [] => true
  | left :: lefts, right :: rights => same left right && sameItems lefts rights
  | _, _ => false

/-- Equality of two lists of named values. -/
def sameFields : List (String × Json) → List (String × Json) → Bool
  | [], [] => true
  | (leftKey, left) :: lefts, (rightKey, right) :: rights =>
    leftKey == rightKey && same left right && sameFields lefts rights
  | _, _ => false

end

instance : BEq Json := ⟨same⟩

mutual

/-- Values are the same exactly when they are equal. -/
theorem same_iff_eq : (left right : Json) → (same left right = true ↔ left = right)
  | .null, right => by cases right <;> simp [same]
  | .bool _, right => by cases right <;> simp [same]
  | .int _, right => by cases right <;> simp [same]
  | .real _, right => by cases right <;> simp [same]
  | .str _, right => by cases right <;> simp [same]
  | .arr left, .arr right => by simpa [same] using sameItems_iff_eq left right
  | .obj left, .obj right => by simpa [same] using sameFields_iff_eq left right
  | .arr _, .null | .arr _, .bool _ | .arr _, .int _ | .arr _, .real _ | .arr _, .str _
  | .arr _, .obj _ => by simp [same]
  | .obj _, .null | .obj _, .bool _ | .obj _, .int _ | .obj _, .real _ | .obj _, .str _
  | .obj _, .arr _ => by simp [same]

/-- Lists of values are the same exactly when they are equal. -/
theorem sameItems_iff_eq :
    (left right : List Json) → (sameItems left right = true ↔ left = right)
  | [], right => by cases right <;> simp [sameItems]
  | _ :: _, [] => by simp [sameItems]
  | left :: lefts, right :: rights => by
    simp [sameItems, same_iff_eq left right, sameItems_iff_eq lefts rights]

/-- Named values are the same exactly when they are equal. -/
theorem sameFields_iff_eq :
    (left right : List (String × Json)) → (sameFields left right = true ↔ left = right)
  | [], right => by cases right <;> simp [sameFields]
  | (_, _) :: _, [] => by simp [sameFields]
  | (leftKey, left) :: lefts, (rightKey, right) :: rights => by
    simp [sameFields, same_iff_eq left right, sameFields_iff_eq lefts rights]

end

instance : LawfulBEq Json where
  eq_of_beq := (same_iff_eq _ _).1
  rfl := (same_iff_eq _ _).2 rfl

/-- A list of texts as a value. -/
def texts (items : List String) : Json :=
  .arr (items.map .str)

/-- The text that a value is, if it is one. -/
def text? : Json → Option String
  | .str text => some text
  | _ => none

/-- A value counts as true unless it is null, false, zero or empty. -/
def truthy : Json → Bool
  | .null => false
  | .bool value => value
  | .int value => value != 0
  | .real value => !value.isZero
  | .str text => text != ""
  | .arr items => !items.isEmpty
  | .obj fields => !fields.isEmpty

end Json

namespace Fields

/-- The value of a field, if there is one of that name. -/
def get? (key : String) : Fields → Option Json
  | [] => none
  | (name, value) :: rest => if name == key then some value else get? key rest

/-- Whether there is a field of that name. -/
def has (fields : Fields) (key : String) : Bool :=
  (fields.get? key).isSome

/-- Give a field a value: in its place if the name is there, at the end if not. -/
def put (key : String) (value : Json) : Fields → Fields
  | [] => [(key, value)]
  | (name, old) :: rest =>
    if name == key then (name, value) :: rest else (name, old) :: put key value rest

/-- The names of the fields, in order. -/
def keys (fields : Fields) : List String :=
  fields.map Prod.fst

/-- A field that was put is found with its value. -/
@[simp]
theorem get?_put_same (key : String) (value : Json) (fields : Fields) :
    (fields.put key value).get? key = some value := by
  induction fields with
  | nil => simp [put, get?]
  | cons field rest induction =>
    obtain ⟨name, old⟩ := field
    by_cases same : name = key <;> simp [put, get?, same, induction]

/-- Putting a field leaves every other field as it was. -/
theorem get?_put_other {key other : String} (different : other ≠ key) (value : Json)
    (fields : Fields) :
    (fields.put key value).get? other = fields.get? other := by
  induction fields with
  | nil => simp [put, get?, Ne.symm different]
  | cons field rest induction =>
    obtain ⟨name, old⟩ := field
    by_cases same : name = key
    · subst same
      simp [put, get?, Ne.symm different]
    · by_cases found : name = other
      · subst found
        simp [put, get?, same]
      · simp [put, get?, same, found, induction]

end Fields

end SpecAudit

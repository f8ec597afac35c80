import SpecAudit.Json.Basic
import SpecAudit.Spec.Structure

/-!
# The configuration of a project

A configuration is an object with a known set of keys, each with a type and a default.  Repairing a
configuration gives its default to every key that is missing or has a value of another type;
everything else stays as it is.
-/

namespace SpecAudit.Config

/-- What values a key takes. -/
inductive ValueType where
  /-- A truth value. -/
  | truth
  /-- A list. -/
  | list
  /-- One of a few texts. -/
  | choice (choices : List String)

/-- A key of the configuration. -/
structure Key where
  name : String
  type : ValueType
  default : Json
  description : String

/-- Whether a value is of a type; a text need not be one of the choices. -/
def ValueType.admits : ValueType → Json → Bool
  | .truth, .bool _ => true
  | .list, .arr _ => true
  | .choice _, .str _ => true
  | _, _ => false

/-- The directories below `app` whose sources are covered by default. -/
def defaultCovered : List String :=
  ["models", "controllers", "services", "jobs", "mailers", "helpers"]

/-- The methods that are left out by default. -/
def defaultExcludedMethods : List String := ["initialize"]

/-- How the names of methods start that are left out by default. -/
def defaultExcludedStarts : List String :=
  ["before_", "after_", "around_", "validate_", "autosave_"]

/-- The keys of the configuration, in order. -/
def schema : List Key :=
  [ ⟨"ignore_memoization", .truth, .bool true,
      "Exclude memoization idioms (@x ||= ...) from branch counts"⟩,
    ⟨"covered_directories", .list, .texts defaultCovered,
      "Segments under app/ whose files must have spec parity"⟩,
    ⟨"excluded_methods", .list, .texts defaultExcludedMethods,
      "Method names that are never analyzed"⟩,
    ⟨"excluded_prefixes", .list, .texts defaultExcludedStarts,
      "Method name prefixes (framework hooks) that are never analyzed"⟩,
    ⟨"exclude", .list, .arr [], "Path patterns to exclude from scanning"⟩,
    ⟨"disabled_cops", .list, .arr [], "Cop names to skip during scans"⟩,
    ⟨"spec_structure", .choice (Spec.Structure.all.map Spec.Structure.name),
      .str Spec.Structure.byTree.name,
      "How spec files are read: syntax (parse, indent fallback) or indent"⟩ ]

/-- The key of a name. -/
def key? (name : String) : Option Key :=
  schema.find? (·.name == name)

/-- The configuration in which every key has its default. -/
def defaults : Fields :=
  schema.map fun key => (key.name, key.default)

/-- Give a key its default unless it has a value of its type. -/
def repairKey (fields : Fields) (key : Key) : Fields :=
  match fields.get? key.name with
  | some value => if key.type.admits value then fields else fields.put key.name key.default
  | none => fields.put key.name key.default

/-- Give every key its default that has no value of its type. -/
def repaired (fields : Fields) : Fields :=
  schema.foldl repairKey fields

end SpecAudit.Config

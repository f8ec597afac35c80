/-!
# Kinds of methods

A method is called on an instance, or on the class itself.
-/

namespace SpecAudit.Method

/-- How a method is called: on an instance or on the class itself. -/
inductive MethodKind where
  /-- On an instance. -/
  | instanceMethod
  /-- On the class itself. -/
  | classMethod
  deriving DecidableEq

namespace MethodKind

/-- The name of a kind. -/
def name : MethodKind → String
  | instanceMethod => "instance"
  | classMethod => "class"

/-- The kind of a name. -/
def ofName? : String → Option MethodKind
  | "instance" => some instanceMethod
  | "class" => some classMethod
  | _ => none

/-- The mark that stands before the name of a method of a kind. -/
def mark : MethodKind → String
  | instanceMethod => "#"
  | classMethod => "."

/-- The other kind. -/
def other : MethodKind → MethodKind
  | instanceMethod => classMethod
  | classMethod => instanceMethod

end MethodKind

end SpecAudit.Method

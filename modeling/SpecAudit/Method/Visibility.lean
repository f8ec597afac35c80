import SpecAudit.Syntax.Statement

/-!
# Visibility of methods

The visibility of a method is found by going through the statements of the class or module around
it.  A bare modifier holds for the methods after it; a modifier that has the definition as its
argument holds for that definition alone.
-/

namespace SpecAudit.Method

open SpecAudit.Syntax

/-- Who may call a method. -/
inductive Visibility where
  | isPublic
  | isPrivate
  | isProtected
  deriving DecidableEq

namespace Visibility

/-- The modifier that gives a visibility. -/
def name : Visibility → String
  | isPublic => "public"
  | isPrivate => "private"
  | isProtected => "protected"

/-- The visibility that a modifier gives. -/
def ofName? : String → Option Visibility
  | "public" => some isPublic
  | "private" => some isPrivate
  | "protected" => some isProtected
  | _ => none

end Visibility

/-- The visibility that a statement sets for the methods after it. -/
def bareModifier? (statement : Node) : Option Visibility :=
  if statement.type == "identifier" then Visibility.ofName? statement.text
  else if !statement.isCall || statement.hasReceiver then none
  else if !statement.arguments.isEmpty || (statement.child? "block").isSome then none
  else Visibility.ofName? statement.methodName

/-- The visibility that a statement gives to a definition among its arguments. -/
def wrappingModifier? (statement definition : Node) : Option Visibility :=
  if !statement.isCall || statement.hasReceiver then none
  else
    match Visibility.ofName? statement.methodName with
    | none => none
    | some modifier =>
      if statement.arguments.any (·.id == definition.id) then some modifier else none

/-- The visibility of a definition among statements, where `current` holds at their start. -/
def visibilityAmong (definition : Node) (current : Visibility) : List Node → Visibility
  | [] => current
  | statement :: rest =>
    if statement.covers definition then (wrappingModifier? statement definition).getD current
    else visibilityAmong definition ((bareModifier? statement).getD current) rest

/-- The nearest class or module around a node. -/
def enclosingType? (ancestors : List Node) : Option Node :=
  ancestors.find? fun ancestor => ancestor.type == "class" || ancestor.type == "module"

/-- The visibility of a method definition.  A method defined on an object is public. -/
def visibility (occurrence : Occurrence) : Visibility :=
  if occurrence.node.type == "singleton_method" then .isPublic
  else
    match enclosingType? occurrence.ancestors with
    | none => .isPublic
    | some owner => visibilityAmong occurrence.node .isPublic owner.statements

end SpecAudit.Method

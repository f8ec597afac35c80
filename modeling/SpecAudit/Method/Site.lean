import SpecAudit.Method.Kind
import SpecAudit.Method.Visibility

/-!
# Method definitions

Every method definition of a source file, with its name, its place, its kind and its visibility.
-/

namespace SpecAudit.Method

open SpecAudit.Syntax

/-- A method definition.  Lines count from one and columns from zero. -/
structure Site where
  name : String
  kind : MethodKind
  line : Nat
  column : Nat
  endLine : Nat
  endColumn : Nat
  visibility : Visibility
  /-- The definition itself. -/
  node : Node

namespace Site

/-- The name of the method behind the mark of its kind. -/
def qualifiedName (site : Site) : String :=
  site.kind.mark ++ site.name

/-- Whether anyone may call the method. -/
def isPublic (site : Site) : Bool :=
  site.visibility == .isPublic

end Site

/-- Whether a node defines a method. -/
def isDefinition (node : Node) : Bool :=
  node.type == "method" || node.type == "singleton_method"

/-- Whether a node opens the class of the object it stands in. -/
def opensOwnClass (node : Node) : Bool :=
  node.type == "singleton_class" && (node.child? "value").any (·.type == "self")

/-- The kind of the method that a definition defines. -/
def kindOf (occurrence : Occurrence) : MethodKind :=
  if occurrence.node.type == "singleton_method" || occurrence.ancestors.any opensOwnClass then
    .classMethod
  else .instanceMethod

/-- The method that a definition defines. -/
def siteOf (occurrence : Occurrence) : Site :=
  let label := occurrence.node.label
  { name := occurrence.node.childText "name"
    kind := kindOf occurrence
    line := label.startPoint.row + 1
    column := label.startPoint.column
    endLine := label.endPoint.row + 1
    endColumn := label.endPoint.column
    visibility := visibility occurrence
    node := occurrence.node }

/-- The methods defined below a node, in the order of their definitions. -/
def sites (root : Node) : List Site :=
  ((root.occurrences []).filter (isDefinition ·.node)).map siteOf

end SpecAudit.Method

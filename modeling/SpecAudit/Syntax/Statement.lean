import SpecAudit.Syntax.Node

/-!
# Statements, calls and parentheses

What the nodes of a syntax tree mean to the analyses: the statements of a body, the method and the
arguments of a call, and the expression inside parentheses.
-/

namespace SpecAudit.Syntax

namespace Node

/-- Whether the node is a named one and no comment. -/
def isCode (node : Node) : Bool :=
  node.label.named && node.type != "comment"

mutual

/-- The expression inside parentheses that hold a single statement, however many there are. -/
def unwrapped : Node → Node
  | node label children =>
    if label.type == "parenthesized_statements" then
      (unwrappedSole? children).getD (node label children)
    else node label children

/-- The only statement of a list, without the parentheses around it. -/
def unwrappedSole? : List Node → Option Node
  | [] => none
  | first :: rest =>
    if first.isCode then
      if rest.any isCode then none else some (unwrapped first)
    else unwrappedSole? rest

end

/-- The types of the nodes whose named children are statements one after the other. -/
def containerTypes : List String :=
  ["program", "body_statement", "block_body", "then", "else", "begin",
    "parenthesized_statements"]

/-- The fields that belong to the head of a definition and not to its body. -/
def headFields : List String :=
  ["name", "superclass", "parameters", "value", "object"]

/-- Whether the named children of the node are statements one after the other. -/
def isContainer (node : Node) : Bool :=
  containerTypes.contains node.type

/-- The numbers of the children that make up the head of a definition. -/
def headIds (node : Node) : List Nat :=
  if node.isContainer then [] else headFields.filterMap fun field => (node.child? field).map id

/-- The named children of the node that are statements of its body. -/
def ownStatements (node : Node) : List Node :=
  node.namedChildren.filter fun child =>
    !node.headIds.contains child.id
      && !(["comment", "method_parameters", "superclass"].contains child.type)

/-- The statements of a class, module, method, block or clause, whether they stand in a body of
their own or directly in the node. -/
def statements (node : Node) : List Node :=
  match node.child? "body" with
  | some body => if body.isContainer then body.ownStatements else [body]
  | none => node.ownStatements

/-- Whether the node is a method call. -/
def isCall (node : Node) : Bool :=
  node.type == "call"

/-- The name of the method that a call calls, empty for any other node. -/
def methodName (node : Node) : String :=
  if node.isCall then node.childText "method" else ""

/-- The arguments in the node's list of arguments, without comments. -/
def arguments (node : Node) : List Node :=
  match node.child? "arguments" with
  | some list => list.namedChildren.filter (·.type != "comment")
  | none => []

/-- Whether the node has a receiver. -/
def hasReceiver (node : Node) : Bool :=
  (node.child? "receiver").isSome

/-- The operator of the node, empty if it has none. -/
def operator (node : Node) : String :=
  node.childText "operator"

end Node

end SpecAudit.Syntax

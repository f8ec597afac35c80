import SpecAudit.Syntax.Statement

/-!
# Memoization idioms

Statements that compute a field once and keep it: `@x ||= v`, `return @x if defined?(@x)`,
`@x = v if @x.nil?` and `@x || v`.
-/

namespace SpecAudit.Method

open SpecAudit.Syntax

/-- The name of the instance variable that an expression is, up to parentheses. -/
def instanceVariable? (node : Node) : Option String :=
  let node := node.unwrapped
  if node.type == "instance_variable" then some node.text else none

/-- The instance variable in a field of a node. -/
def instanceVariableIn? (node : Node) (field : String) : Option String :=
  (node.child? field).bind instanceVariable?

/-- The instance variable that an expression asks to be defined. -/
def definedVariable? (node : Node) : Option String :=
  let node := node.unwrapped
  if node.type == "unary" && node.operator == "defined?" then instanceVariableIn? node "operand"
  else none

/-- The single statement that a conditional guards. -/
def guardedStatement? (node : Node) : Option Node :=
  if node.type == "if_modifier" || node.type == "unless_modifier" then node.child? "body"
  else if (node.type == "if" || node.type == "unless") && (node.child? "alternative").isNone then
    match (node.child? "consequence").map Node.statements with
    | some [statement] => some statement
    | _ => none
  else none

/-- The variable that an expression is true for when it is set. -/
def setTestTarget? (condition : Node) : Option String :=
  match instanceVariable? condition with
  | some name => if name.isEmpty then definedVariable? condition else some name
  | none => definedVariable? condition

/-- The variable that an expression is true for when it is not set. -/
def unsetTestTarget? (condition : Node) : Option String :=
  let condition := condition.unwrapped
  if condition.isCall && condition.methodName == "nil?" then
    if condition.arguments.isEmpty then instanceVariableIn? condition "receiver" else none
  else if condition.type == "unary" && (condition.operator == "!" || condition.operator == "not")
  then (condition.child? "operand").bind setTestTarget?
  else none

/-- Whether a node is `@x ||= v`. -/
def isOrAssign (node : Node) : Bool :=
  node.type == "operator_assignment" && node.operator == "||="
    && (instanceVariableIn? node "left").isSome

/-- The values that a `return` gives back. -/
def returnValues (node : Node) : List Node :=
  node.namedChildren.flatMap fun child =>
    if child.type == "argument_list" then child.namedChildren.filter (·.type != "comment")
    else if child.type == "comment" then []
    else [child]

/-- Whether a node is `return @x if defined?(@x)`. -/
def isDefinedGuard (node : Node) : Bool :=
  if node.type == "if" || node.type == "if_modifier" then
    match (node.child? "condition").bind definedVariable?, guardedStatement? node with
    | some checked, some guarded =>
      guarded.type == "return" && (returnValues guarded).all fun value =>
        match instanceVariable? value with
        | none => true
        | some name => name == checked
    | _, _ => false
  else false

/-- Whether a node is `@x = v` guarded by a test that `@x` is not set. -/
def isUnsetGuardAssign (node : Node) : Bool :=
  let test? :=
    if node.type == "if" || node.type == "if_modifier" then some unsetTestTarget?
    else if node.type == "unless" || node.type == "unless_modifier" then some setTestTarget?
    else none
  match test? with
  | none => false
  | some test =>
    match (node.child? "condition").bind test, guardedStatement? node with
    | some target, some guarded =>
      guarded.type == "assignment" && instanceVariableIn? guarded "left" == some target
    | _, _ => false

/-- Whether a node is `@x || v`. -/
def isOrDefault (node : Node) : Bool :=
  node.type == "binary" && (node.operator == "||" || node.operator == "or")
    && (instanceVariableIn? node "left").isSome

/-- Whether a node is one of the memoization idioms. -/
def isMemoization (node : Node) : Bool :=
  isOrAssign node || isDefinedGuard node || isUnsetGuardAssign node || isOrDefault node

end SpecAudit.Method

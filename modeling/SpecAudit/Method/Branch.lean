import SpecAudit.Syntax.Statement

/-!
# Branches of a node

How many branches a single node of a method contributes.  A conditional has two, and one more for
every further arm that is chained to it; a selection has one for every clause and one for its
`else`; a short-circuit operator and a bitwise operator have one each, and an assignment that is
conditional on its target has two.
-/

namespace SpecAudit.Method

open SpecAudit.Syntax

/-- What a node means for the count of branches. -/
inductive BranchKind where
  | conditional
  | multiway
  | shortCircuit
  | compoundAssign
  | call
  | other
  deriving DecidableEq

/-- The name of a kind. -/
def BranchKind.name : BranchKind → String
  | conditional => "conditional"
  | multiway => "multiway"
  | shortCircuit => "short_circuit"
  | compoundAssign => "compound_assign"
  | call => "call"
  | other => "other"

/-- Whether a type is that of a conditional. -/
def isConditionalType (type : String) : Bool :=
  ["if", "unless", "if_modifier", "unless_modifier", "conditional"].contains type

/-- Whether a type is that of a selection among clauses. -/
def isMultiwayType (type : String) : Bool :=
  ["case", "case_match"].contains type

/-- Whether a name is that of a bitwise operator. -/
def isBitwise (name : String) : Bool :=
  ["&", "|"].contains name

/-- Whether an operator evaluates its right side only where the left side does not decide. -/
def isShortCircuit (operator : String) : Bool :=
  ["&&", "||", "and", "or"].contains operator

/-- What a node means for the count of branches. -/
def branchKind (node : Node) : BranchKind :=
  if isConditionalType node.type then .conditional
  else if isMultiwayType node.type then .multiway
  else if node.type == "binary" then
    if isShortCircuit node.operator then .shortCircuit
    else if isBitwise node.operator then .call
    else .other
  else if node.type == "operator_assignment" && ["||=", "&&="].contains node.operator then
    .compoundAssign
  else if node.isCall then .call
  else .other

/-- Whether a node in the `alternative` field continues the chain of a node, by their types. -/
def continues (type alternative : String) : Bool :=
  ((type == "if" || type == "elsif") && alternative == "elsif")
    || (type == "conditional" && alternative == "conditional")

/-- The conditional that continues the chain of a node. -/
def continuation? (node : Node) : Option Node :=
  match node.child? "alternative" with
  | none => none
  | some alternative => if continues node.type alternative.type then some alternative else none

mutual

/-- How many conditionals follow a node in its chain. -/
def chainLength : Node → Nat
  | .node label children => chainLengthOf label.type children

/-- How many conditionals follow a node of a type in its chain, by its children. -/
def chainLengthOf (type : String) : List Node → Nat
  | [] => 0
  | first :: rest =>
    if first.label.field? == some "alternative" then
      if continues type first.type then chainLength first + 1 else 0
    else chainLengthOf type rest

end

/-- The chain of a node is as long as that of its continuation and one more. -/
theorem chainLength_of_continuation? {node next : Node} (linked : continuation? node = some next) :
    chainLength node = chainLength next + 1 := by
  obtain ⟨label, children⟩ := node
  simp only [continuation?, Node.child?, Node.children_node, Node.type_node] at linked
  simp only [chainLength]
  induction children with
  | nil => simp at linked
  | cons first rest induction =>
    rw [chainLengthOf]
    by_cases fills : (first.label.field? == some "alternative") = true
    · by_cases continued : continues label.type first.type = true
      · simp_all
      · simp [fills, continued] at linked
    · simp only [List.find?_cons, fills] at linked
      simpa [fills] using induction linked

/-- The clauses of a selection, and its `else` if it has one. -/
def multiwayBranches (node : Node) : Nat :=
  let types := node.namedChildren.map Node.type
  (types.filter ["when", "in_clause"].contains).length + if types.contains "else" then 1 else 0

/-- The branch of a bitwise operator, written as an operator or as a call. -/
def callBranches (node : Node) : Nat :=
  let name := if node.type == "binary" then node.operator else node.methodName
  if isBitwise name then 1 else 0

/-- The branches that a node contributes. -/
def branchContribution (node : Node) : Nat :=
  match branchKind node with
  | .conditional => 2 + chainLength node
  | .multiway => multiwayBranches node
  | .shortCircuit => 1
  | .compoundAssign => 2
  | .call => callBranches node
  | .other => 0

end SpecAudit.Method

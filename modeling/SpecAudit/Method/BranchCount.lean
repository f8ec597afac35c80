import SpecAudit.Method.Branch
import SpecAudit.Method.Memoization

/-!
# The branches of a method

The branches of a method are those of the named nodes below its definition.  A chained conditional
counts with the head of its chain alone, and a memoization idiom counts only on request; what is
inside it counts in any case.
-/

namespace SpecAudit.Method

open SpecAudit.Syntax

/-- The numbers of the conditionals that continue the chain of another node of a list. -/
def continuationIds (nodes : List Node) : List Nat :=
  nodes.filterMap fun node => (continuation? node).map Node.id

/-- The number of branches of a method definition. -/
def countBranches (ignoreMemoization : Bool) (definition : Node) : Nat :=
  let nodes := definition.descendants
  let linked := continuationIds nodes
  let counted := nodes.filter fun node =>
    !linked.contains node.id && !(ignoreMemoization && isMemoization node)
  (counted.map branchContribution).foldr (· + ·) 0

end SpecAudit.Method

import Mathlib.Data.List.Basic

/-!
# Walking with a stack

Trees can be walked over with a stack instead of a recursion: the tree on top is
met, and the trees directly inside it are put in its place, the first of them on
top.  Each round takes one tree off what the stack still promises.  So the walk
ends, and it meets what the recursion lists.
-/

namespace SpecAudit

/-- A kind of trees: what stands directly inside a tree, and the recursion that
lists a tree and everything inside it, each tree before what is inside. -/
structure Branching (α : Type) where
  parts : α → List α
  listing : α → List α
  listing_eq : ∀ tree, listing tree = tree :: (parts tree).flatMap listing

namespace Branching

variable {α : Type} (kind : Branching α) {tree : α} {stack rest : List α}

/-- One round of the walk: the tree at the end of the stack, and the stack
without it but with the trees inside it, the first of them at the end. -/
def next? (stack : List α) : Option (α × List α) :=
  stack.getLast?.map fun tree =>
    (tree, stack.dropLast ++ (kind.parts tree).reverse)

/-- Everything that the trees on a stack hold, from the end of the stack on. -/
def promised (stack : List α) : List α :=
  stack.reverse.flatMap kind.listing

variable {kind}

/-- A round meets the first tree that is promised and leaves the others. -/
theorem promised_of_next? (round : kind.next? stack = some (tree, rest)) :
    kind.promised stack = tree :: kind.promised rest := by
  rcases Option.map_eq_some_iff.mp round with ⟨top, found, same⟩
  cases same
  rcases List.getLast?_eq_some_iff.mp found with ⟨below, rfl⟩
  rw [promised, promised, List.reverse_concat, List.flatMap_cons,
    kind.listing_eq, List.dropLast_concat, List.reverse_append,
    List.reverse_reverse, List.flatMap_append, List.cons_append]

theorem length_promised_lt (round : kind.next? stack = some (tree, rest)) :
    (kind.promised rest).length < (kind.promised stack).length := by
  rw [promised_of_next? round]
  exact Nat.lt_succ_self _

theorem promised_of_next?_eq_none (ended : kind.next? stack = none) :
    kind.promised stack = [] := by
  rw [next?, Option.map_eq_none_iff, List.getLast?_eq_none_iff] at ended
  rw [ended]
  rfl

variable (kind)

/-- The trees that are met round after round, until the stack is empty. -/
def walk (stack : List α) : List α :=
  match _ : kind.next? stack with
  | none => []
  | some (tree, rest) => tree :: walk rest
termination_by (kind.promised stack).length
decreasing_by exact length_promised_lt ‹_›

variable {kind}

theorem walk_of_none (ended : kind.next? stack = none) :
    kind.walk stack = [] := by
  rw [walk]
  split
  · rfl
  · rename_i round
    rw [ended] at round
    cases round

theorem walk_of_some (round : kind.next? stack = some (tree, rest)) :
    kind.walk stack = tree :: kind.walk rest := by
  rw [walk]
  split
  · rename_i ended
    rw [round] at ended
    cases ended
  · rename_i again
    rw [round] at again
    cases again
    rfl

variable (kind)

/-- The walk meets what is promised. -/
theorem walk_eq_promised (stack : List α) :
    kind.walk stack = kind.promised stack := by
  induction stack using walk.induct kind with
  | case1 stack ended =>
      rw [walk_of_none ended, promised_of_next?_eq_none ended]
  | case2 stack tree rest round induction =>
      rw [walk_of_some round, promised_of_next? round, induction]

/-- A walk that starts with the last of some trees at the bottom lists them. -/
theorem walk_reverse (trees : List α) :
    kind.walk trees.reverse = trees.flatMap kind.listing := by
  rw [walk_eq_promised, promised, List.reverse_reverse]

end Branching

end SpecAudit

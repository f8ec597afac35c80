import SpecAudit.Proofs.Syntax.Occurrence
import SpecAudit.Syntax.Statement

/-!
# Parentheses

A pair of parentheses around a single statement is passed over, and so is every
pair inside it; any other node is left as it is.  So what holds inside
parentheses as well as around them holds of a node if it holds of the node that
is unwrapped.
-/

namespace SpecAudit.Syntax.Node

/-- Whether a node is a pair of parentheses around a single statement. -/
def IsParenthesized (node inner : Node) : Prop :=
  node.type = "parenthesized_statements" ∧ node.children.filter isCode = [inner]

theorem unwrappedSole?_eq (children : List Node) :
    unwrappedSole? children =
      match children.filter isCode with
      | [only] => some only.unwrapped
      | _ => none := by
  induction children with
  | nil => rfl
  | cons first rest induction =>
      rw [unwrappedSole?]
      cases isCode' : first.isCode with
      | false =>
          rw [List.filter_cons_of_neg (by simp [isCode'])]
          exact induction
      | true =>
          rw [List.filter_cons_of_pos isCode']
          cases others : rest.filter isCode with
          | nil =>
              have noCode : rest.any isCode = false := by
                simpa [List.filter_eq_nil_iff] using others
              simp [noCode]
          | cons second more =>
              have member : second ∈ rest.filter isCode := by
                simp [others]
              rw [List.mem_filter] at member
              have hasCode : rest.any isCode = true :=
                List.any_eq_true.mpr ⟨second, member⟩
              simp [hasCode]

theorem unwrapped_eq (node : Node) :
    node.unwrapped =
      if node.type == "parenthesized_statements" then
        match node.children.filter isCode with
        | [only] => only.unwrapped
        | _ => node
      else node := by
  rcases node with ⟨label, children⟩
  rw [unwrapped, unwrappedSole?_eq]
  congr 1
  rw [children_node]
  split <;> rfl

variable {node inner other : Node}

namespace IsParenthesized

theorem unwrapped (parens : node.IsParenthesized inner) :
    node.unwrapped = inner.unwrapped := by
  rw [unwrapped_eq, parens.1, parens.2]
  rfl

theorem unique (left : node.IsParenthesized inner)
    (right : node.IsParenthesized other) : inner = other := by
  have same := left.2.symm.trans right.2
  rw [List.cons.injEq] at same
  exact same.1

theorem mem_children (parens : node.IsParenthesized inner) :
    inner ∈ node.children := by
  apply List.mem_of_mem_filter
  rw [parens.2]
  exact List.mem_singleton_self inner

end IsParenthesized

/-- What is unwrapped is the node itself, or it stands in its parentheses. -/
theorem unwrapped_cases (node : Node) :
    node.unwrapped = node ∨ ∃ inner, node.IsParenthesized inner := by
  rw [unwrapped_eq]
  split
  · rename_i kind
    split
    · rename_i inner sole
      exact .inr ⟨inner, by simpa using kind, sole⟩
    · exact .inl rfl
  · exact .inl rfl

/-- What holds inside parentheses as well as around them holds of a node if it
holds of the node that is unwrapped. -/
theorem of_unwrapped (holds : Node → Prop)
    (enclosed : ∀ {node inner : Node}, node.IsParenthesized inner →
      holds inner → holds node) :
    ∀ {node : Node}, holds node.unwrapped → holds node := by
  intro node
  induction node using Node.induction with
  | step node induction =>
      intro within
      rcases unwrapped_cases node with same | ⟨inner, parens⟩
      · rwa [same] at within
      · rw [parens.unwrapped] at within
        exact enclosed parens (induction inner parens.mem_children within)

end SpecAudit.Syntax.Node

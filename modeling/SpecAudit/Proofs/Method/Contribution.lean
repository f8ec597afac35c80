import SpecAudit.Method.Branch

/-!
# Contributions of single nodes

Only an `if`, an `elsif` and a ternary can be continued, and nothing follows a
node that is not.  What any other node contributes is said by its type, with
its operator or the method that it calls.
-/

namespace SpecAudit.Method

open SpecAudit.Syntax

/-! ## Continuations -/

theorem continuation?_eq_some_iff {node next : Node} :
    continuation? node = some next ↔
      node.child? "alternative" = some next ∧
        continues node.type next.type = true := by
  unfold continuation?
  cases node.child? "alternative" with
  | none => simp
  | some alternative =>
      simp only [Option.ite_none_right_eq_some, Option.some_inj]
      constructor
      · rintro ⟨continued, rfl⟩
        exact ⟨rfl, continued⟩
      · rintro ⟨rfl, continued⟩
        exact ⟨continued, rfl⟩

theorem chainLength_eq_zero {node : Node} (ends : continuation? node = none) :
    chainLength node = 0 := by
  rcases node with ⟨label, children⟩
  simp only [continuation?, Node.child?, Node.children_node, Node.type_node]
    at ends
  rw [chainLength]
  induction children with
  | nil => rfl
  | cons first rest induction =>
      rw [chainLengthOf]
      by_cases fills : (first.label.field? == some "alternative") = true
      · rw [if_pos fills]
        by_cases continued : continues label.type first.type = true
        · simp [fills, continued] at ends
        · exact if_neg continued
      · simp only [List.find?_cons, fills] at ends
        rw [if_neg fills]
        exact induction ends

theorem continues_eq_false {type alternative : String}
    (noElsif : alternative ≠ "elsif") (noTernary : alternative ≠ "conditional") :
    continues type alternative = false := by
  simp [continues, noElsif, noTernary]

/-- Only an `if`, an `elsif` and a ternary can be continued. -/
theorem continuation?_eq_none {node : Node} (noIf : node.type ≠ "if")
    (noElsif : node.type ≠ "elsif") (noTernary : node.type ≠ "conditional") :
    continuation? node = none := by
  rw [Option.eq_none_iff_forall_ne_some]
  intro next continued
  have continues' := (continuation?_eq_some_iff.mp continued).2
  simp [continues, noIf, noElsif, noTernary] at continues'

/-! ## Contributions by type -/

theorem branchContribution_of_conditional {node : Node}
    (conditional : isConditionalType node.type = true) :
    branchContribution node = 2 + chainLength node := by
  simp [branchContribution, branchKind, conditional]

theorem branchContribution_of_multiway {node : Node}
    (multiway : isMultiwayType node.type = true) :
    branchContribution node = multiwayBranches node := by
  have unconditional : isConditionalType node.type = false := by
    simp only [isMultiwayType, List.contains_cons, List.contains_nil,
      Bool.or_false, Bool.or_eq_true, beq_iff_eq] at multiway
    rcases multiway with kind | kind
    all_goals
      rw [kind]
      decide
  simp [branchContribution, branchKind, unconditional, multiway]

theorem branchContribution_of_binary {node : Node}
    (kind : node.type = "binary") :
    branchContribution node =
      if isShortCircuit node.operator then 1
      else if isBitwise node.operator then 1
      else 0 := by
  simp only [branchContribution, branchKind, isConditionalType, isMultiwayType,
    kind]
  cases isShortCircuit node.operator with
  | true => simp
  | false =>
      cases bitwise : isBitwise node.operator with
      | true => simp [callBranches, kind, bitwise]
      | false => simp

theorem branchContribution_of_assignment {node : Node}
    (kind : node.type = "operator_assignment") :
    branchContribution node =
      if ["||=", "&&="].contains node.operator then 2 else 0 := by
  simp only [branchContribution, branchKind, isConditionalType, isMultiwayType,
    kind]
  cases ["||=", "&&="].contains node.operator with
  | true => simp
  | false => simp [Node.isCall, kind]

theorem branchContribution_of_call {node : Node} (kind : node.type = "call") :
    branchContribution node = if isBitwise node.methodName then 1 else 0 := by
  simp [branchContribution, branchKind, isConditionalType, isMultiwayType,
    kind, callBranches, Node.isCall]

end SpecAudit.Method

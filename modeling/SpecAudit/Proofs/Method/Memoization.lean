import SpecAudit.Proofs.Method.Chain

/-!
# Idioms and chains

A memoization idiom is an assignment, a guarded statement or a default.  It has
no alternative and is none that continues anything, so it stands in no chain.
-/

namespace SpecAudit.Method

open SpecAudit.Syntax

theorem isOrDefault_eq_false {node : Node} (noBinary : node.type ≠ "binary") :
    isOrDefault node = false := by
  simp [isOrDefault, noBinary]

/-- What a node is that stands in no chain and contributes as an idiom does. -/
structure IsApart (node : Node) : Prop where
  noElsif : node.type ≠ "elsif"
  noTernary : node.type ≠ "conditional"
  ends : chainLength node = 0
  contributes : branchContribution node = if isOrDefault node then 1 else 2

theorem isApart_of_conditional {node : Node}
    (conditional : isConditionalType node.type = true)
    (noTernary : node.type ≠ "conditional")
    (ends : chainLength node = 0) : IsApart node := by
  have noElsif : node.type ≠ "elsif" := by
    intro kind
    rw [kind] at conditional
    exact absurd conditional (by decide)
  have noBinary : node.type ≠ "binary" := by
    intro kind
    rw [kind] at conditional
    exact absurd conditional (by decide)
  refine ⟨noElsif, noTernary, ends, ?_⟩
  rw [branchContribution_of_conditional conditional, ends,
    isOrDefault_eq_false noBinary]
  rfl

theorem isApart_of_guardedStatement? {node statement : Node}
    (guarded : guardedStatement? node = some statement) : IsApart node := by
  unfold guardedStatement? at guarded
  split at guarded
  · rename_i isModifier
    simp only [Bool.or_eq_true, beq_iff_eq] at isModifier
    rcases isModifier with kind | kind
    all_goals
      apply isApart_of_conditional
      · rw [kind]
        decide
      · simp [kind]
      · exact chainLength_eq_zero
          (continuation?_eq_none (by simp [kind]) (by simp [kind])
            (by simp [kind]))
  · split at guarded
    · rename_i alone
      simp only [Bool.and_eq_true, Bool.or_eq_true, beq_iff_eq,
        Option.isNone_iff_eq_none] at alone
      rcases alone with ⟨kind, alone⟩
      have ends : chainLength node = 0 := by
        apply chainLength_eq_zero
        rw [continuation?, alone]
      rcases kind with kind | kind
      all_goals
        apply isApart_of_conditional
        · rw [kind]
          decide
        · simp [kind]
        · exact ends
    · cases guarded

theorem isApart_of_isOrAssign {node : Node} (assigns : isOrAssign node = true) :
    IsApart node := by
  simp only [isOrAssign, Bool.and_eq_true, beq_iff_eq] at assigns
  rcases assigns with ⟨⟨kind, operator⟩, -⟩
  have noBinary : node.type ≠ "binary" := by
    simp [kind]
  refine ⟨by simp [kind], by simp [kind], ?_, ?_⟩
  · exact chainLength_eq_zero
      (continuation?_eq_none (by simp [kind]) (by simp [kind]) (by simp [kind]))
  · rw [isOrDefault_eq_false noBinary, branchContribution_of_assignment kind,
      operator]
    rfl

theorem isApart_of_isOrDefault {node : Node}
    (defaults : isOrDefault node = true) : IsApart node := by
  have worth := defaults
  simp only [isOrDefault, Bool.and_eq_true, Bool.or_eq_true, beq_iff_eq]
    at defaults
  rcases defaults with ⟨⟨kind, operator⟩, -⟩
  have decides : isShortCircuit node.operator = true := by
    rcases operator with operator | operator
    all_goals
      rw [operator]
      decide
  refine ⟨by simp [kind], by simp [kind], ?_, ?_⟩
  · exact chainLength_eq_zero
      (continuation?_eq_none (by simp [kind]) (by simp [kind]) (by simp [kind]))
  · rw [worth, branchContribution_of_binary kind, decides]
    rfl

theorem isApart_of_isDefinedGuard {node : Node}
    (guards : isDefinedGuard node = true) : IsApart node := by
  unfold isDefinedGuard at guards
  split at guards
  · split at guards
    · rename_i guarded
      exact isApart_of_guardedStatement? guarded
    · cases guards
  · cases guards

theorem isApart_of_isUnsetGuardAssign {node : Node}
    (guards : isUnsetGuardAssign node = true) : IsApart node := by
  unfold isUnsetGuardAssign at guards
  simp only at guards
  split at guards
  · cases guards
  · split at guards
    · rename_i guarded
      exact isApart_of_guardedStatement? guarded
    · cases guards

/-- Every idiom stands in no chain, and contributes one if it is a default and
two otherwise. -/
theorem isApart_of_isMemoization {node : Node}
    (idiom : isMemoization node = true) : IsApart node := by
  simp only [isMemoization, Bool.or_eq_true] at idiom
  rcases idiom with ((assigns | guards) | guards) | defaults
  · exact isApart_of_isOrAssign assigns
  · exact isApart_of_isDefinedGuard guards
  · exact isApart_of_isUnsetGuardAssign guards
  · exact isApart_of_isOrDefault defaults

end SpecAudit.Method

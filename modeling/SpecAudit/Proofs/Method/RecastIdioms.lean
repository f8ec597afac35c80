import SpecAudit.Proofs.Method.Recast
import SpecAudit.Proofs.Method.UnsetGuard

/-!
# Idioms in another form

The tests that memoization idioms put to a condition look through parentheses, and
the statement that a guard holds is the same behind the guard and in a clause.  So a
recast node is an idiom exactly if it was one.
-/

namespace SpecAudit.Method

open SpecAudit.Syntax

variable {renumber : Nat → Nat} {word : String}
  {old new node condition clause statement : Node}

/-! ## Arguments -/

theorem IsEnclosed.isCode_eq (enclosed : IsEnclosed condition node) :
    node.isCode = condition.isCode := by
  induction enclosed with
  | bare => rfl
  | parens kind named _ isCode _ induction =>
      rw [← induction, isCode]
      simp [Node.isCode, kind, named]

theorem IsClause.isCode (holds : IsClause statement clause) :
    clause.isCode = true := by
  simp [Node.isCode, holds.kind, holds.named]

theorem IsClause.isCode_statement (holds : IsClause statement clause) :
    statement.isCode = true := by
  have isStatement := holds.isStatement
  simp only [List.mem_cons, not_or] at isStatement
  simp [Node.isCode, isStatement]

theorem arguments_eq (node : Node) :
    node.arguments =
      match node.child? "arguments" with
      | some list => list.children.filter Node.isCode
      | none => [] := by
  have code (list : Node) : list.namedChildren.filter (·.type != "comment") =
      list.children.filter Node.isCode := by
    rw [Node.namedChildren, List.filter_filter]
    apply List.filter_congr
    intro child _
    rw [Node.isCode, Bool.and_comm]
  unfold Node.arguments
  cases node.child? "arguments" with
  | none => rfl
  | some list => exact code list

theorem Recast.isEmpty_code_eq (recast : Recast renumber old new) :
    (new.children.filter Node.isCode).isEmpty =
      (old.children.filter Node.isCode).isEmpty := by
  cases recast with
  | keep labels fits below =>
      have code := Recast.matches_filter Recast.isCode_eq
        (Kept.of_below labels fits below).children
      rw [Bool.eq_iff_iff, List.isEmpty_iff_length_eq_zero, ← code.length_eq,
        List.isEmpty_iff_length_eq_zero]
  | reform _ modifier _ _ _ statements conditions enclosed form =>
      rw [← filter_isCode_withoutRemarks old.children, modifier.parts,
        ← filter_isCode_withoutRemarks new.children]
      rcases form with modifier' | block
      · have sameGuard := enclosed.isCode_eq.trans conditions.isCode_eq
        rw [modifier'.parts]
        simp only [List.filter_cons, List.filter_nil, statements.isCode_eq,
          sameGuard]
        split
        · rfl
        · split <;> rfl
      · rcases block.parts with ⟨clause, holds, parts⟩
        have isCode := statements.isCode_eq.symm.trans holds.isCode_statement
        rw [parts, List.filter_cons_of_pos isCode, List.isEmpty_cons,
          List.filter_cons]
        split <;> simp [holds.isCode]

theorem Kept.isEmpty_arguments_eq (kept : Kept renumber old new) :
    new.arguments.isEmpty = old.arguments.isEmpty := by
  rw [arguments_eq, arguments_eq]
  rcases rel_cases (kept.child? "arguments") with
    ⟨missing, missing'⟩ | ⟨list, list', found, found', matched⟩
  · rw [missing, missing']
  · rw [found, found']
    exact matched.2.isEmpty_code_eq

/-! ## Conditions -/

/-- What is read off a condition and is the same in all its forms. -/
structure IsSteady (renumber : Nat → Nat) (reads : Node → Option String) : Prop
    where
  recast : ∀ {old new}, Recast renumber old new → reads new = reads old
  enclosed : ∀ {node other : Node}, node.unwrapped = other.unwrapped →
    reads node = reads other

theorem Recast.definedVariable?_eq (recast : Recast renumber old new) :
    definedVariable? new = definedVariable? old := by
  have inner := recast.unwrapped
  have same := inner.apply_type (· == "unary") (by decide)
  simp only [definedVariable?, same]
  cases kind : old.unwrapped.type == "unary" with
  | false => rfl
  | true =>
      have kept := inner.kept_of_eq kind (by decide)
      rw [kept.operator_eq, kept.instanceVariableIn?_eq]

theorem isSteady_definedVariable? : IsSteady renumber definedVariable? where
  recast := Recast.definedVariable?_eq
  enclosed same := by simp only [definedVariable?, same]

theorem isSteady_setTestTarget? : IsSteady renumber setTestTarget? where
  recast recast := by
    simp only [setTestTarget?, recast.instanceVariable?_eq,
      recast.definedVariable?_eq]
  enclosed same := by
    simp only [setTestTarget?, instanceVariable?, definedVariable?, same]

theorem Recast.unsetTestTarget?_eq (recast : Recast renumber old new) :
    unsetTestTarget? new = unsetTestTarget? old := by
  have inner := recast.unwrapped
  have sameCall := inner.apply_type (· == "call") (by decide)
  have sameUnary := inner.apply_type (· == "unary") (by decide)
  simp only [unsetTestTarget?, Node.isCall, sameCall, sameUnary]
  by_cases isCall : (old.unwrapped.type == "call") = true
  · have kept := inner.kept_of_eq isCall (by decide)
    have noUnary : (old.unwrapped.type == "unary") = false := by
      rw [beq_iff_eq.mp isCall]
      decide
    rw [kept.methodName_eq, kept.isEmpty_arguments_eq,
      kept.instanceVariableIn?_eq, noUnary]
    rfl
  · by_cases isUnary : (old.unwrapped.type == "unary") = true
    · have kept := inner.kept_of_eq isUnary (by decide)
      simp only [isCall, kept.operator_eq,
        kept.bind_child? "operand" isSteady_setTestTarget?.recast]
      rfl
    · simp only [isCall, isUnary]
      rfl

theorem isSteady_unsetTestTarget? : IsSteady renumber unsetTestTarget? where
  recast := Recast.unsetTestTarget?_eq
  enclosed same := by simp only [unsetTestTarget?, same]

theorem isSteady_of_unsetTest? {type : String} {test : Node → Option String}
    (chosen : unsetTest? type = some test) : IsSteady renumber test := by
  unfold unsetTest? at chosen
  split at chosen
  · rw [Option.some_inj] at chosen
    exact chosen ▸ isSteady_unsetTestTarget?
  · rw [Option.ite_none_right_eq_some, Option.some_inj] at chosen
    exact chosen.2 ▸ isSteady_setTestTarget?

theorem Recast.bind_condition {reads : Node → Option String}
    (recast : Recast renumber old new) (steady : IsSteady renumber reads) :
    (new.child? "condition").bind reads =
      (old.child? "condition").bind reads := by
  cases recast with
  | keep labels fits below =>
      exact (Kept.of_below labels fits below).bind_child? "condition"
        steady.recast
  | reform _ modifier _ _ _ _ conditions enclosed form =>
      have found := form.elim IsModifier.child?_condition
        IsBlock.child?_condition
      rw [found, modifier.child?_condition]
      -- Parentheses first, then the condition inside them.
      exact (steady.enclosed enclosed.unwrapped_eq).trans
        (steady.recast conditions)

/-! ## Statements -/

theorem Kept.headIds_eq (kept : Kept renumber old new) :
    new.headIds = old.headIds.map renumber := by
  have numbers (field : String) : (new.child? field).map Node.id =
      ((old.child? field).map Node.id).map renumber := by
    rcases rel_cases (kept.child? field) with
      ⟨missing, missing'⟩ | ⟨child, child', found, found', matched⟩
    · rw [missing, missing']
      rfl
    · rw [found, found']
      exact congrArg some matched.2.id_eq
  have same : new.type = old.type := kept.labels.type
  have sameContainer : new.isContainer = old.isContainer := by
    rw [Node.isContainer, same, Node.isContainer]
  rw [Node.headIds, Node.headIds, sameContainer]
  cases old.isContainer with
  | true => rfl
  | false => simp [numbers, List.map_filterMap]

theorem IsModifier.guards (isWord : word = "if" ∨ word = "unless")
    (modifier : IsModifier word statement condition node) :
    Guards statement node := by
  refine .modifier ?_ modifier.child?_body
  rw [modifier.kind]
  rcases isWord with rfl | rfl
  · exact .inl rfl
  · exact .inr rfl

theorem IsBlock.guards (isWord : word = "if" ∨ word = "unless")
    (block : IsBlock word statement condition node) :
    Guards statement node := by
  rcases block.exists_child?_consequence with ⟨clause, holds, found⟩
  exact .block (block.kind ▸ isWord) block.child?_alternative found
    holds.statements_eq

section Numbers

variable (injective : Function.Injective renumber)
include injective

theorem Kept.ownStatements (kept : Kept renumber old new) :
    List.Forall₂ (Recast renumber) old.ownStatements new.ownStatements := by
  refine List.rel_filter ?_ (kept.namedChildren.imp fun _ _ => And.right)
  intro old' new' recast
  have sameType := recast.apply_type
    ["comment", "method_parameters", "superclass"].contains (by decide)
  have sameHead : new.headIds.contains new'.id =
      old.headIds.contains old'.id := by
    rw [kept.headIds_eq, recast.id_eq, Bool.eq_iff_iff,
      List.contains_iff_mem, List.contains_iff_mem,
      List.mem_map_of_injective injective]
  simp only [sameType, sameHead]

theorem Kept.statements (kept : Kept renumber old new) :
    List.Forall₂ (Recast renumber) old.statements new.statements := by
  unfold Node.statements
  rcases rel_cases (kept.child? "body") with
    ⟨missing, missing'⟩ | ⟨body, body', found, found', matched⟩
  · rw [missing, missing']
    exact kept.ownStatements injective
  · have same : body'.isContainer = body.isContainer :=
      matched.2.apply_type Node.containerTypes.contains (by decide)
    rw [found, found']
    simp only [same]
    split
    · rename_i isContainer
      -- A container is no guard, so it stays and its own statements count.
      have disjoint : ∀ type ∈ Node.containerTypes,
          isGuardType type = false := by
        decide
      have noGuard := disjoint _ (List.contains_iff_mem.mp isContainer)
      exact (matched.2.kept noGuard).ownStatements injective
    · exact .cons matched.2 .nil

/-- A clause is no guard itself, so its statements correspond. -/
theorem Kept.consequence_rel (kept : Kept renumber old new) :
    Option.Rel (List.Forall₂ (Recast renumber))
      ((old.child? "consequence").map Node.statements)
      ((new.child? "consequence").map Node.statements) := by
  rcases rel_cases (kept.child? "consequence") with
    ⟨missing, missing'⟩ | ⟨clause, clause', found, found', matched⟩
  · rw [missing, missing']
    exact .none
  · have fills := List.find?_some found
    rw [beq_iff_eq] at fills
    rw [found, found']
    exact .some ((matched.2.kept_of_clause fills).statements injective)

theorem Kept.guardedStatement?_rel (kept : Kept renumber old new) :
    Option.Rel (Recast renumber) (guardedStatement? old)
      (guardedStatement? new) := by
  have same : new.type = old.type := kept.labels.type
  have alone : (new.child? "alternative").isNone =
      (old.child? "alternative").isNone := by
    rcases rel_cases (kept.child? "alternative") with
      ⟨missing, missing'⟩ | ⟨arm, arm', found, found', -⟩
    · rw [missing, missing']
    · rw [found, found']
      rfl
  simp only [guardedStatement?, same, alone]
  split
  · rcases rel_cases (kept.child? "body") with
      ⟨missing, missing'⟩ | ⟨body, body', found, found', matched⟩
    · rw [missing, missing']
      exact .none
    · rw [found, found']
      exact .some matched.2
  · split
    · rcases rel_cases (kept.consequence_rel injective) with
        ⟨missing, missing'⟩ | ⟨listed, listed', found, found', statements⟩
      · rw [missing, missing']
        exact .none
      · rw [found, found']
        cases statements with
        | nil => exact .none
        | cons recast others =>
            cases others with
            | nil => exact .some recast
            | cons _ _ => exact .none
    · exact .none

/-- The statement that a conditional guards is recast with the conditional. -/
theorem Recast.guardedStatement?_rel (recast : Recast renumber old new) :
    Option.Rel (Recast renumber) (guardedStatement? old)
      (guardedStatement? new) := by
  cases recast with
  | keep labels fits below =>
      exact (Kept.of_below labels fits below).guardedStatement?_rel injective
  | reform isWord modifier _ _ _ statements _ _ form =>
      have guards : guardedStatement? old = some _ :=
        guardedStatement?_eq_some_iff.mpr (modifier.guards isWord)
      have guards' : guardedStatement? new = some _ :=
        guardedStatement?_eq_some_iff.mpr
          (form.elim (·.guards isWord) (·.guards isWord))
      rw [guards, guards']
      exact .some statements

end Numbers

/-! ## Idioms -/

theorem Kept.returnValues (kept : Kept renumber old new) :
    List.Forall₂ (Recast renumber) (returnValues old) (returnValues new) := by
  refine List.rel_flatMap kept.namedChildren ?_
  rintro old new ⟨-, recast⟩
  have sameList := recast.apply_type (· == "argument_list") (by decide)
  have sameRemark := recast.apply_type (· == "comment") (by decide)
  simp only [sameList, sameRemark]
  split
  · rename_i isList
    have kept := recast.kept_of_eq isList (by decide)
    have values := Recast.matches_filter
      (fun recast => recast.apply_type (· != "comment") (by decide))
      kept.namedChildren
    exact values.imp fun _ _ => And.right
  · split
    · exact .nil
    · exact .cons recast .nil

theorem all_eq_of_recast {test : Node → Bool} {nodes nodes' : List Node}
    (agree : ∀ {old new}, Recast renumber old new → test new = test old)
    (listed : List.Forall₂ (Recast renumber) nodes nodes') :
    nodes'.all test = nodes.all test := by
  induction listed with
  | nil => rfl
  | cons first _ induction =>
      rw [List.all_cons, List.all_cons, agree first, induction]

/-- A statement assigns a field in any form if it does in one. -/
theorem Recast.assigns_eq (recast : Recast renumber old new) (name : String) :
    (new.type == "assignment" && instanceVariableIn? new "left" == some name) =
      (old.type == "assignment" &&
        instanceVariableIn? old "left" == some name) := by
  apply recast.and_eq "assignment"
    (fun node => instanceVariableIn? node "left" == some name) (by decide)
  intro old new kept
  rw [kept.instanceVariableIn?_eq]

/-- A statement gives back a field in any form if it does in one. -/
theorem Recast.returns_eq (recast : Recast renumber old new) (name : String) :
    (new.type == "return" && (returnValues new).all fun value =>
        match instanceVariable? value with
        | none => true
        | some other => other == name) =
      (old.type == "return" && (returnValues old).all fun value =>
        match instanceVariable? value with
        | none => true
        | some other => other == name) := by
  apply recast.and_eq "return" (fun node => (returnValues node).all _)
    (by decide)
  intro old new kept
  refine all_eq_of_recast ?_ kept.returnValues
  intro old new value
  simp only [value.instanceVariable?_eq]

theorem Recast.isOrAssign_eq (recast : Recast renumber old new) :
    isOrAssign new = isOrAssign old := by
  rw [isOrAssign, isOrAssign, Bool.and_assoc, Bool.and_assoc]
  apply recast.and_eq "operator_assignment" (fun node =>
    node.operator == "||=" && (instanceVariableIn? node "left").isSome)
    (by decide)
  intro old new kept
  rw [kept.operator_eq, kept.instanceVariableIn?_eq]

theorem Recast.isOrDefault_eq (recast : Recast renumber old new) :
    isOrDefault new = isOrDefault old := by
  rw [isOrDefault, isOrDefault, Bool.and_assoc, Bool.and_assoc]
  apply recast.and_eq "binary" (fun node =>
    (node.operator == "||" || node.operator == "or") &&
      (instanceVariableIn? node "left").isSome) (by decide)
  intro old new kept
  rw [kept.operator_eq, kept.instanceVariableIn?_eq]

section Numbers

variable (injective : Function.Injective renumber)
include injective

theorem Recast.isUnsetGuardAssign_eq (recast : Recast renumber old new) :
    isUnsetGuardAssign new = isUnsetGuardAssign old := by
  have sameTest := recast.apply_type unsetTest? ⟨rfl, rfl⟩
  rw [SpecAudit.Method.isUnsetGuardAssign_eq,
    SpecAudit.Method.isUnsetGuardAssign_eq, sameTest]
  cases chosen : unsetTest? old.type with
  | none => rfl
  | some test =>
      simp only [recast.bind_condition (isSteady_of_unsetTest? chosen)]
      cases (old.child? "condition").bind test with
      | none => rfl
      | some target =>
          rcases rel_cases (recast.guardedStatement?_rel injective) with
            ⟨missing, missing'⟩ | ⟨guarded, guarded', found, found', inner⟩
          · rw [missing, missing']
          · rw [found, found']
            exact inner.assigns_eq target

theorem Recast.isDefinedGuard_eq (recast : Recast renumber old new) :
    isDefinedGuard new = isDefinedGuard old := by
  have sameIf := recast.apply_type
    (fun type => type == "if" || type == "if_modifier") (by decide)
  simp only [isDefinedGuard, sameIf,
    recast.bind_condition isSteady_definedVariable?]
  congr 1
  cases (old.child? "condition").bind definedVariable? with
  | none => rfl
  | some checked =>
      rcases rel_cases (recast.guardedStatement?_rel injective) with
        ⟨missing, missing'⟩ | ⟨guarded, guarded', found, found', inner⟩
      · rw [missing, missing']
      · rw [found, found']
        exact inner.returns_eq checked

theorem Recast.isMemoization_eq (recast : Recast renumber old new) :
    isMemoization new = isMemoization old := by
  rw [isMemoization, isMemoization, recast.isOrAssign_eq,
    recast.isDefinedGuard_eq injective, recast.isUnsetGuardAssign_eq injective,
    recast.isOrDefault_eq]

end Numbers

end SpecAudit.Method

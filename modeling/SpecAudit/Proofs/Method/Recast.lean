import Mathlib.Data.List.Forall2
import SpecAudit.Method.Memoization
import SpecAudit.Method.Branch
import SpecAudit.Proofs.Syntax.Parentheses

/-!
# Guarded statements in another form

A statement can be guarded by a condition behind it or by one in front of it, and
the condition can stand in parentheses.  A tree is recast if guards anywhere in it
are put into another of these forms.  Its nodes may be numbered anew and stand at
other places of the text.  The accessors of the syntax see through the change:
fields and what parentheses enclose correspond.
-/

namespace SpecAudit.Method

open SpecAudit.Syntax

/-! ## Forms of guarded statements -/

/-- Whether a node is a comment, which fills no field and holds nothing. -/
def isRemark (node : Node) : Bool :=
  node.type == "comment" && node.label.field?.isNone && node.children.isEmpty

/-- The nodes of a list without the comments among them. -/
def withoutRemarks (nodes : List Node) : List Node :=
  nodes.filter fun node => !isRemark node

/-- Whether a node is a condition, up to parentheses that hold it and comments. -/
inductive IsEnclosed (condition : Node) : Node → Prop where
  | bare : IsEnclosed condition condition
  | parens {node inner : Node} (kind : node.type = "parenthesized_statements")
      (named : node.label.named = true)
      (parts : withoutRemarks node.children = [inner])
      (isCode : inner.isCode = true) (within : IsEnclosed condition inner) :
      IsEnclosed condition node

/-- Whether a node is a statement with a guard of the given word behind it. -/
structure IsModifier (word : String) (statement condition node : Node) : Prop
    where
  kind : node.type = word ++ "_modifier"
  parts : withoutRemarks node.children = [statement, condition]
  atBody : statement.label.field? = some "body"
  atCondition : condition.label.field? = some "condition"

/-- Whether a node is the clause that holds the statement behind a guard. -/
structure IsClause (statement clause : Node) : Prop where
  kind : clause.type = "then"
  named : clause.label.named = true
  atConsequence : clause.label.field? = some "consequence"
  parts : withoutRemarks clause.children = [statement]
  atNothing : statement.label.field? = none
  isStatement : statement.label.named = true ∧
    statement.type ∉ ["comment", "method_parameters", "superclass"]

/-- Whether a node is a guard of the given word with a statement in a clause. -/
structure IsBlock (word : String) (statement condition node : Node) : Prop where
  kind : node.type = word
  atCondition : condition.label.field? = some "condition"
  parts : ∃ clause, IsClause statement clause ∧
    withoutRemarks node.children = [condition, clause]

theorem type_eq_of_isRemark {node : Node} (remark : isRemark node = true) :
    node.type = "comment" := by
  simp only [isRemark, Bool.and_eq_true, beq_iff_eq] at remark
  exact remark.1.1

/-- What keeps no comment picks the same with comments and without. -/
theorem filter_withoutRemarks {keeps : Node → Bool}
    (skips : ∀ node, node.type = "comment" → keeps node = false)
    (nodes : List Node) : (withoutRemarks nodes).filter keeps =
      nodes.filter keeps := by
  rw [withoutRemarks, List.filter_filter]
  apply List.filter_congr
  intro node _
  cases remark : isRemark node with
  | true => simp [skips node (type_eq_of_isRemark remark)]
  | false => simp

theorem filter_isCode_withoutRemarks (nodes : List Node) :
    (withoutRemarks nodes).filter Node.isCode = nodes.filter Node.isCode :=
  filter_withoutRemarks (fun node isComment => by
    simp [Node.isCode, isComment]) nodes

/-- Comments fill no field. -/
theorem child?_eq_find?_withoutRemarks (node : Node) (field : String) :
    node.child? field = (withoutRemarks node.children).find? fun child =>
      child.label.field? == some field := by
  rw [withoutRemarks, List.find?_filter, Node.child?]
  congr 1
  funext child
  cases remark : isRemark child with
  | true =>
      simp only [isRemark, Bool.and_eq_true, Option.isNone_iff_eq_none] at remark
      simp [remark.1.2]
  | false => simp only [Bool.not_false, true_and, Bool.decide_eq_true]

theorem IsEnclosed.unwrapped_eq {condition node : Node}
    (enclosed : IsEnclosed condition node) :
    node.unwrapped = condition.unwrapped := by
  induction enclosed with
  | bare => rfl
  | parens kind _ parts isCode _ induction =>
      have sole := filter_isCode_withoutRemarks _ ▸ congrArg
        (List.filter Node.isCode) parts
      rw [List.filter_cons_of_pos isCode, List.filter_nil] at sole
      exact (Node.IsParenthesized.unwrapped ⟨kind, sole⟩).trans induction

variable {word : String} {statement condition clause node : Node}

namespace IsModifier

theorem child?_body (modifier : IsModifier word statement condition node) :
    node.child? "body" = some statement := by
  simp [child?_eq_find?_withoutRemarks, modifier.parts, modifier.atBody]

theorem child?_condition (modifier : IsModifier word statement condition node) :
    node.child? "condition" = some condition := by
  simp [child?_eq_find?_withoutRemarks, modifier.parts, modifier.atBody,
    modifier.atCondition]

end IsModifier

/-- The statement in a clause is the only one of the clause. -/
theorem IsClause.statements_eq (holds : IsClause statement clause) :
    clause.statements = [statement] := by
  have noBody : clause.child? "body" = none := by
    simp [child?_eq_find?_withoutRemarks, holds.parts, holds.atNothing]
  have container : clause.isContainer = true := by
    rw [Node.isContainer, holds.kind]
    decide
  have noHead : clause.headIds = [] := by
    simp [Node.headIds, container]
  have listed : clause.statements = clause.children.filter fun child =>
      child.label.named &&
        !(["comment", "method_parameters", "superclass"].contains
          child.type) := by
    simp [Node.statements, noBody, Node.ownStatements, noHead,
      Node.namedChildren, List.filter_filter, Bool.and_comm]
  rw [listed, ← filter_withoutRemarks _ clause.children, holds.parts]
  · simpa [holds.isStatement.1] using holds.isStatement.2
  · intro node isComment
    simp [isComment]

namespace IsBlock

theorem child?_condition (block : IsBlock word statement condition node) :
    node.child? "condition" = some condition := by
  rcases block.parts with ⟨clause, -, parts⟩
  simp [child?_eq_find?_withoutRemarks, parts, block.atCondition]

theorem child?_alternative (block : IsBlock word statement condition node) :
    node.child? "alternative" = none := by
  rcases block.parts with ⟨clause, holds, parts⟩
  simp [child?_eq_find?_withoutRemarks, parts, block.atCondition,
    holds.atConsequence]

theorem exists_child?_consequence
    (block : IsBlock word statement condition node) :
    ∃ clause, IsClause statement clause ∧
      node.child? "consequence" = some clause := by
  rcases block.parts with ⟨clause, holds, parts⟩
  refine ⟨clause, holds, ?_⟩
  simp [child?_eq_find?_withoutRemarks, parts, block.atCondition,
    holds.atConsequence]

end IsBlock

/-! ## Trees in other forms -/

/-- A node that keeps its type gets its new number, and keeps its text if it is a
field of the object. -/
structure Keeps (renumber : Nat → Nat) (old new : Label) : Prop where
  id : new.id = renumber old.id
  type : new.type = old.type
  named : new.named = old.named
  text : old.type = "instance_variable" → new.text = old.text

/-- A child fills the field that it filled, and keeps its text if it names an
operator or a method. -/
structure Fits (old new : Node) : Prop where
  field : new.label.field? = old.label.field?
  text : old.label.field? = some "operator" ∨ old.label.field? = some "method" →
    new.text = old.text

/--
A tree that is recast: a statement with a guard behind it may get the guard in
front of it, and its condition may get parentheses.  All else stays, with other
numbers.  The grammar has a `then` or an expression where a conditional has its
consequence, so a guarded statement never stands there itself.
-/
inductive Recast (renumber : Nat → Nat) : Node → Node → Prop where
  | keep {label label' : Label} {children children' : List Node}
      (labels : Keeps renumber label label')
      (fits : List.Forall₂ Fits children children')
      (below : List.Forall₂ (Recast renumber) children children') :
      Recast renumber (.node label children) (.node label' children')
  | reform {old new statement statement' condition condition' guard' : Node}
      {word : String} (isWord : word = "if" ∨ word = "unless")
      (modifier : IsModifier word statement condition old)
      (noClause : old.label.field? ≠ some "consequence")
      (id : new.id = renumber old.id)
      (named : new.label.named = old.label.named)
      (statements : Recast renumber statement statement')
      (conditions : Recast renumber condition condition')
      (enclosed : IsEnclosed condition' guard')
      (form : IsModifier word statement' guard' new ∨
        IsBlock word statement' guard' new) :
      Recast renumber old new

theorem Fits.refl (node : Node) : Fits node node :=
  ⟨rfl, fun _ => rfl⟩

/-- A tree that stays is recast, even if its root fills another field. -/
theorem Recast.of_children {label label' : Label} {children : List Node}
    (labels : Keeps id label label') :
    Recast id (.node label children) (.node label' children) := by
  have same (node : Node) : Recast id node node := by
    induction node using Node.induction with
    | step node induction =>
        rcases node with ⟨label, children⟩
        exact .keep ⟨rfl, rfl, rfl, fun _ => rfl⟩
          (List.forall₂_same.mpr fun child _ => .refl child)
          (List.forall₂_same.mpr induction)
  exact .keep labels (List.forall₂_same.mpr fun child _ => .refl child)
    (List.forall₂_same.mpr fun child _ => same child)

/-- A child of a node and what it is recast into. -/
def Matches (renumber : Nat → Nat) (old new : Node) : Prop :=
  Fits old new ∧ Recast renumber old new

/-- A node that is recast but for its children stays what it is. -/
structure Kept (renumber : Nat → Nat) (old new : Node) : Prop where
  labels : Keeps renumber old.label new.label
  children : List.Forall₂ (Matches renumber) old.children new.children

variable {renumber : Nat → Nat} {old new : Node}

theorem Kept.of_below {label label' : Label} {children children' : List Node}
    (labels : Keeps renumber label label')
    (fits : List.Forall₂ Fits children children')
    (below : List.Forall₂ (Recast renumber) children children') :
    Kept renumber (.node label children) (.node label' children') :=
  ⟨labels, fits.mp (fun _ _ => .intro) below⟩

/-! ## Types -/

/-- Whether a property of types is the same for both forms of a guard. -/
def IsBlind {α : Type} (property : String → α) : Prop :=
  property "if_modifier" = property "if" ∧
    property "unless_modifier" = property "unless"

instance {α : Type} [DecidableEq α] (property : String → α) :
    Decidable (IsBlind property) :=
  inferInstanceAs (Decidable (_ ∧ _))

theorem IsBlind.apply {α : Type} {property : String → α}
    (blind : IsBlind property) (isWord : word = "if" ∨ word = "unless") :
    property (word ++ "_modifier") = property word := by
  rcases isWord with rfl | rfl
  · exact blind.1
  · exact blind.2

/-- Whether a type is that of a guard in one of its forms. -/
def isGuardType (type : String) : Bool :=
  ["if", "unless", "if_modifier", "unless_modifier"].contains type

namespace Recast

/-- A node that is recast stays what it is, or it is a guard of some word and is
given one of the two forms. -/
theorem kept_or (recast : Recast renumber old new) :
    Kept renumber old new ∨
      old.label.field? ≠ some "consequence" ∧
        ∃ word, (word = "if" ∨ word = "unless") ∧
          old.type = word ++ "_modifier" ∧
          (new.type = word ++ "_modifier" ∨ new.type = word) := by
  cases recast with
  | keep labels fits below => exact .inl (.of_below labels fits below)
  | reform isWord modifier noClause _ _ _ _ _ form =>
      exact .inr ⟨noClause, _, isWord, modifier.kind,
        form.imp IsModifier.kind IsBlock.kind⟩

theorem apply_type {α : Type} (recast : Recast renumber old new)
    (property : String → α) (blind : IsBlind property) :
    property new.type = property old.type := by
  rcases recast.kept_or with kept | ⟨-, word, isWord, kind, kind' | kind'⟩
  · exact congrArg property kept.labels.type
  · rw [kind, kind']
  · rw [kind, kind', blind.apply isWord]

/-- A node that has no form of a guard stays what it is. -/
theorem kept (recast : Recast renumber old new)
    (noGuard : isGuardType old.type = false) : Kept renumber old new := by
  rcases recast.kept_or with kept | ⟨-, word, isWord, kind, -⟩
  · exact kept
  · rw [kind] at noGuard
    rcases isWord with rfl | rfl
    all_goals exact absurd noGuard (by decide)

theorem kept_of_eq {type : String} (recast : Recast renumber old new)
    (kind : (old.type == type) = true)
    (noGuard : isGuardType type = false) : Kept renumber old new :=
  recast.kept ((beq_iff_eq.mp kind).symm ▸ noGuard)

/-- A test of nodes of some type needs to agree on those that stay. -/
theorem and_eq (recast : Recast renumber old new) (type : String)
    (test : Node → Bool) (noGuard : isGuardType type = false)
    (agree : ∀ {old new}, Kept renumber old new → test new = test old) :
    (new.type == type && test new) = (old.type == type && test old) := by
  have blind : IsBlind (· == type) := by
    simp only [isGuardType, List.contains_cons, Bool.or_eq_false_iff,
      beq_eq_false_iff_ne] at noGuard
    rcases noGuard with ⟨noIf, noUnless, noIf', noUnless', -⟩
    simp [IsBlind, noIf.symm, noUnless.symm, noIf'.symm, noUnless'.symm]
  rw [recast.apply_type (· == type) blind]
  cases kind : old.type == type with
  | false => rfl
  | true => rw [agree (recast.kept_of_eq kind noGuard)]

/-- The clause of a node stays what it is. -/
theorem kept_of_clause (recast : Recast renumber old new)
    (atConsequence : old.label.field? = some "consequence") :
    Kept renumber old new := by
  rcases recast.kept_or with kept | ⟨noClause, -⟩
  · exact kept
  · exact absurd atConsequence noClause

theorem id_eq (recast : Recast renumber old new) : new.id = renumber old.id := by
  cases recast with
  | keep labels _ _ => exact labels.id
  | reform _ _ _ id _ _ _ _ _ => exact id

theorem named_eq (recast : Recast renumber old new) :
    new.label.named = old.label.named := by
  cases recast with
  | keep labels _ _ => exact labels.named
  | reform _ _ _ _ named _ _ _ _ => exact named

theorem isCode_eq (recast : Recast renumber old new) :
    new.isCode = old.isCode := by
  rw [Node.isCode, Node.isCode, recast.named_eq,
    recast.apply_type (· != "comment") (by decide)]

/-! ## Parentheses -/

theorem matches_filter {keeps : Node → Bool} {nodes nodes' : List Node}
    (agree : ∀ {old new}, Recast renumber old new → keeps new = keeps old)
    (below : List.Forall₂ (Matches renumber) nodes nodes') :
    List.Forall₂ (Matches renumber) (nodes.filter keeps)
      (nodes'.filter keeps) := by
  refine List.rel_filter ?_ below
  intro old new recast
  simp only [agree recast.2]

/-- What parentheses hold is recast with them. -/
theorem unwrapped :
    ∀ {new : Node}, Recast renumber old new →
      Recast renumber old.unwrapped new.unwrapped := by
  induction old using Node.induction with
  | step old induction =>
      intro new recast
      have same := recast.apply_type (· == "parenthesized_statements") (by decide)
      rw [Node.unwrapped_eq old, Node.unwrapped_eq new, same]
      split
      · rename_i isParens
        have kept := recast.kept_of_eq isParens (by decide)
        have inner := matches_filter isCode_eq kept.children
        cases parts : old.children.filter Node.isCode with
        | nil =>
            rw [parts, List.forall₂_nil_left_iff] at inner
            rw [inner]
            exact recast
        | cons first rest =>
            have member : first ∈ old.children := by
              apply List.mem_of_mem_filter
              rw [parts]
              exact List.mem_cons_self
            rw [parts] at inner
            rcases List.forall₂_cons_left_iff.mp inner with
              ⟨first', rest', matched, others, parts'⟩
            rw [parts']
            cases others with
            | nil => exact induction first member matched.2
            | cons _ _ => exact recast
      · exact recast

theorem instanceVariable?_eq (recast : Recast renumber old new) :
    instanceVariable? new = instanceVariable? old := by
  have inner := recast.unwrapped
  have same := inner.apply_type (· == "instance_variable") (by decide)
  simp only [instanceVariable?]
  rw [same]
  split
  · rename_i kind
    have kept := inner.kept_of_eq kind (by decide)
    exact congrArg some (kept.labels.text (beq_iff_eq.mp kind))
  · rfl

end Recast

/-! ## Fields -/

/-- Of two optional things in a relation, both are there or none is. -/
theorem rel_cases {α β : Type} {related : α → β → Prop} {left? : Option α}
    {right? : Option β} (rel : Option.Rel related left? right?) :
    (left? = none ∧ right? = none) ∨
      ∃ left right, left? = some left ∧ right? = some right ∧
        related left right := by
  cases rel with
  | none => exact .inl ⟨rfl, rfl⟩
  | some related => exact .inr ⟨_, _, rfl, rfl, related⟩

namespace Kept

theorem child? (kept : Kept renumber old new) (field : String) :
    Option.Rel (Matches renumber) (old.child? field) (new.child? field) := by
  have children := kept.children
  unfold Node.child?
  generalize old.children = nodes, new.children = nodes' at children
  induction children with
  | nil => exact .none
  | cons matched _ induction =>
      rw [List.find?_cons, List.find?_cons, matched.1.field]
      split
      · exact .some matched
      · exact induction

theorem namedChildren (kept : Kept renumber old new) :
    List.Forall₂ (Matches renumber) old.namedChildren new.namedChildren :=
  Recast.matches_filter (fun recast => recast.named_eq) kept.children

/-- What is read off a child that fills a field is read off what the child is
recast into. -/
theorem bind_child? {α : Type} (kept : Kept renumber old new) (field : String)
    {reads : Node → Option α}
    (agree : ∀ {old new}, Recast renumber old new → reads new = reads old) :
    (new.child? field).bind reads = (old.child? field).bind reads := by
  rcases rel_cases (kept.child? field) with
    ⟨missing, missing'⟩ | ⟨child, child', found, found', matched⟩
  · rw [missing, missing']
  · rw [found, found']
    exact agree matched.2

theorem instanceVariableIn?_eq (kept : Kept renumber old new) (field : String) :
    instanceVariableIn? new field = instanceVariableIn? old field :=
  kept.bind_child? field Recast.instanceVariable?_eq

/-- Names of operators and methods stay. -/
theorem childText_eq (kept : Kept renumber old new) {field : String}
    (isToken : field = "operator" ∨ field = "method") :
    new.childText field = old.childText field := by
  unfold Node.childText
  rcases rel_cases (kept.child? field) with
    ⟨missing, missing'⟩ | ⟨child, child', found, found', matched⟩
  · rw [missing, missing']
  · rw [found, found']
    have fills := List.find?_some found
    rw [beq_iff_eq] at fills
    apply matched.1.text
    rw [fills]
    simpa using isToken

theorem operator_eq (kept : Kept renumber old new) :
    new.operator = old.operator :=
  kept.childText_eq (.inl rfl)

theorem methodName_eq (kept : Kept renumber old new) :
    new.methodName = old.methodName := by
  rw [Node.methodName, Node.methodName, Node.isCall, Node.isCall, Node.type,
    Node.type, kept.labels.type, kept.childText_eq (.inr rfl)]

end Kept

end SpecAudit.Method

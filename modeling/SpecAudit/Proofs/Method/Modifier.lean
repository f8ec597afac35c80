import Mathlib.Data.List.Induction
import SpecAudit.Method.Visibility
import SpecAudit.Proofs.Syntax.Layout

/-!
# Modifiers among statements

A statement may set the visibility of the methods after it, or that of a
definition among its arguments.  Going through statements, those that do not cover
a definition only leave their modifiers for it, and the first that covers it ends
the way, so that what starts after the definition is never reached.
-/

namespace SpecAudit.Method

open SpecAudit.Syntax

/-! ## Modifiers -/

theorem Visibility.ofName?_eq_some_iff {text : String} {modifier : Visibility} :
    Visibility.ofName? text = some modifier ↔ text = modifier.name := by
  constructor
  · intro given
    unfold Visibility.ofName? at given
    split at given <;> simp_all [Visibility.name, eq_comm]
  · rintro rfl
    cases modifier <;> rfl

/-- Whether a statement is the bare name of a modifier, or a call of one that is
given nothing. -/
inductive IsBare (modifier : Visibility) (statement : Node) : Prop where
  | name (isName : statement.type = "identifier")
      (named : statement.text = modifier.name)
  | call (isCall : statement.type = "call")
      (noReceiver : statement.child? "receiver" = none)
      (noArguments : statement.arguments = [])
      (noBlock : statement.child? "block" = none)
      (named : statement.childText "method" = modifier.name)

/-- Whether a statement calls a modifier without a receiver and has a definition
among the arguments of the call. -/
structure Wraps (modifier : Visibility) (statement definition : Node) : Prop where
  isCall : statement.type = "call"
  noReceiver : statement.child? "receiver" = none
  named : statement.childText "method" = modifier.name
  argument : definition ∈ statement.arguments

variable {statement definition : Node} {modifier : Visibility}

/-- The arguments of a call are nodes of it, so their numbers tell them apart. -/
theorem argument_iff (laidOut : statement.IsLaidOut)
    (inside : definition ∈ statement.nodes) :
    statement.arguments.any (·.id == definition.id) = true ↔
      definition ∈ statement.arguments := by
  constructor
  · intro found
    rcases List.any_eq_true.mp found with ⟨argument, member, same⟩
    have stands : argument ∈ statement.nodes := by
      unfold Node.arguments at member
      split at member
      · next list isList =>
          have isChild := List.mem_of_find?_eq_some isList
          have isArgument := Node.mem_children_of_mem_namedChildren
            (List.mem_of_mem_filter member)
          exact (Node.nodes_sublist_of_mem_children isChild).subset
            (Node.mem_nodes_of_mem_children isArgument)
      · cases member
    rwa [← laidOut.eq_of_id_eq stands inside (beq_iff_eq.mp same)]
  · intro member
    exact List.any_eq_true.mpr ⟨definition, member, beq_self_eq_true _⟩

theorem wrappingModifier?_of_call (isCall : statement.type = "call") :
    wrappingModifier? statement definition =
      if statement.child? "receiver" = none ∧
          statement.arguments.any (·.id == definition.id) = true then
        Visibility.ofName? (statement.childText "method")
      else none := by
  simp only [wrappingModifier?, Node.isCall, Node.hasReceiver, Node.methodName,
    isCall, beq_self_eq_true, Bool.not_true, Bool.false_or, if_true]
  cases statement.child? "receiver" with
  | some receiver => simp
  | none =>
      cases Visibility.ofName? (statement.childText "method") <;> simp

theorem wrappingModifier?_eq_some_iff (laidOut : statement.IsLaidOut)
    (inside : definition ∈ statement.nodes) :
    wrappingModifier? statement definition = some modifier ↔
      Wraps modifier statement definition := by
  constructor
  · intro given
    by_cases isCall : statement.type = "call"
    · rw [wrappingModifier?_of_call isCall] at given
      split at given
      · next holds =>
          exact ⟨isCall, holds.1, Visibility.ofName?_eq_some_iff.mp given,
            (argument_iff laidOut inside).mp holds.2⟩
      · cases given
    · simp [wrappingModifier?, Node.isCall, isCall] at given
  · rintro ⟨isCall, noReceiver, named, argument⟩
    rw [wrappingModifier?_of_call isCall,
      if_pos ⟨noReceiver, (argument_iff laidOut inside).mpr argument⟩]
    exact Visibility.ofName?_eq_some_iff.mpr named

theorem bareModifier?_of_call (isCall : statement.type = "call") :
    bareModifier? statement =
      if statement.child? "receiver" = none ∧ statement.arguments = [] ∧
          statement.child? "block" = none then
        Visibility.ofName? (statement.childText "method")
      else none := by
  simp only [bareModifier?, Node.isCall, Node.hasReceiver, Node.methodName, isCall,
    beq_self_eq_true, Bool.not_true, Bool.false_or, if_true]
  rw [if_neg (by decide)]
  cases statement.child? "receiver" with
  | some receiver => simp
  | none => cases statement.arguments <;> cases statement.child? "block" <;> simp

theorem bareModifier?_eq_some_iff :
    bareModifier? statement = some modifier ↔ IsBare modifier statement := by
  constructor
  · intro given
    by_cases isCall : statement.type = "call"
    · rw [bareModifier?_of_call isCall] at given
      split at given
      · next nothing =>
          exact .call isCall nothing.1 nothing.2.1 nothing.2.2
            (Visibility.ofName?_eq_some_iff.mp given)
      · cases given
    · by_cases isName : statement.type = "identifier"
      · refine .name isName (Visibility.ofName?_eq_some_iff.mp ?_)
        rw [← given, bareModifier?, isName]
        rfl
      · simp [bareModifier?, isName, Node.isCall, isCall] at given
  · intro bare
    cases bare with
    | name isName named =>
        rw [bareModifier?, isName, named]
        exact Visibility.ofName?_eq_some_iff.mpr rfl
    | call isCall noReceiver noArguments noBlock named =>
        rw [bareModifier?_of_call isCall,
          if_pos ⟨noReceiver, noArguments, noBlock⟩]
        exact Visibility.ofName?_eq_some_iff.mpr named

theorem bareModifier?_eq_none_iff :
    bareModifier? statement = none ↔
      ∀ modifier, ¬IsBare modifier statement := by
  rw [Option.eq_none_iff_forall_ne_some]
  exact forall_congr' fun modifier => not_congr bareModifier?_eq_some_iff

/-- Whether a visibility is the one that statements leave: that of the last bare
modifier among them, or public if there is none. -/
def Leaves (statements : List Node) (visibility : Visibility) : Prop :=
  (∃ earlier statement later, statements = earlier ++ statement :: later ∧
      IsBare visibility statement ∧
      ∀ other ∈ later, ∀ modifier, ¬IsBare modifier other) ∨
    (visibility = .isPublic ∧
      ∀ other ∈ statements, ∀ modifier, ¬IsBare modifier other)

/-- The visibility after statements, by the last bare modifier among them. -/
def visibilityAfter (statements : List Node) : Visibility :=
  (statements.filterMap bareModifier?).getLast?.getD .isPublic

theorem leaves_append_of_isBare {last : Node} (statements : List Node)
    (bare : IsBare modifier last) : Leaves (statements ++ [last]) modifier :=
  .inl ⟨statements, last, [], rfl, bare,
    fun _ member => absurd member List.not_mem_nil⟩

theorem Leaves.append {statements : List Node} {visibility : Visibility}
    {last : Node} (leaves : Leaves statements visibility)
    (notBare : ∀ modifier, ¬IsBare modifier last) :
    Leaves (statements ++ [last]) visibility := by
  have extended {others : List Node}
      (rest : ∀ other ∈ others, ∀ modifier, ¬IsBare modifier other) :
      ∀ other ∈ others ++ [last], ∀ modifier, ¬IsBare modifier other := by
    intro other member
    rcases List.mem_append.mp member with inside | isLast
    · exact rest other inside
    · exact List.mem_singleton.mp isLast ▸ notBare
  rcases leaves with
    ⟨earlier, statement, later, rfl, bare, rest⟩ | ⟨isPublic, rest⟩
  · exact .inl ⟨earlier, statement, later ++ [last], by simp, bare,
      extended rest⟩
  · exact .inr ⟨isPublic, extended rest⟩

theorem leaves_visibilityAfter (statements : List Node) :
    Leaves statements (visibilityAfter statements) := by
  induction statements using List.reverseRecOn with
  | nil => exact .inr ⟨rfl, fun _ member => absurd member List.not_mem_nil⟩
  | append_singleton statements last induction =>
      rw [visibilityAfter, List.filterMap_append]
      cases found : bareModifier? last with
      | some modifier =>
          rw [List.filterMap_cons_some found, List.filterMap_nil,
            List.getLast?_concat, Option.getD_some]
          exact leaves_append_of_isBare statements
            (bareModifier?_eq_some_iff.mp found)
      | none =>
          rw [List.filterMap_cons_none found, List.filterMap_nil,
            List.append_nil, ← visibilityAfter]
          exact induction.append (bareModifier?_eq_none_iff.mp found)

/-- Statements leave one visibility. -/
theorem leaves_iff {statements : List Node} {visibility : Visibility} :
    Leaves statements visibility ↔ visibility = visibilityAfter statements := by
  have noneLeft {others : List Node}
      (rest : ∀ other ∈ others, ∀ modifier, ¬IsBare modifier other) :
      others.filterMap bareModifier? = [] :=
    List.filterMap_eq_nil_iff.mpr fun other member =>
      bareModifier?_eq_none_iff.mpr (rest other member)
  constructor
  · rintro (⟨earlier, statement, later, rfl, bare, rest⟩ | ⟨rfl, rest⟩)
    · rw [visibilityAfter, List.filterMap_append, List.filterMap_cons_some
        (bareModifier?_eq_some_iff.mpr bare), noneLeft rest, List.getLast?_concat]
      rfl
    · rw [visibilityAfter, noneLeft rest]
      rfl
  · rintro rfl
    exact leaves_visibilityAfter statements

/-! ## Going through statements -/

/-- Statements that do not cover the definition only leave their modifiers. -/
theorem visibilityAmong_append {before : List Node}
    (apart : ∀ statement ∈ before, statement.covers definition = false) :
    ∀ (current : Visibility) (rest : List Node),
      visibilityAmong definition current (before ++ rest) =
        visibilityAmong definition
          ((before.filterMap bareModifier?).getLast?.getD current) rest := by
  induction before with
  | nil =>
      intro current rest
      rfl
  | cons first before induction =>
      intro current rest
      have later := induction fun statement member =>
        apart statement (List.mem_cons_of_mem _ member)
      rw [List.cons_append, visibilityAmong, apart first List.mem_cons_self, later,
        List.filterMap_cons]
      cases bareModifier? first with
      | none => rfl
      | some modifier =>
          rw [List.getLast?_cons]
          rfl

theorem visibilityAmong_of_covers {before after : List Node}
    (apart : ∀ statement ∈ before, statement.covers definition = false)
    (covered : statement.covers definition = true) :
    visibilityAmong definition .isPublic (before ++ statement :: after) =
      (wrappingModifier? statement definition).getD (visibilityAfter before) := by
  rw [visibilityAmong_append apart, visibilityAmong, covered]
  rfl

theorem visibilityAmong_of_not_covers {statements : List Node}
    (apart : ∀ statement ∈ statements, statement.covers definition = false) :
    visibilityAmong definition .isPublic statements =
      visibilityAfter statements := by
  have whole := visibilityAmong_append apart .isPublic []
  rwa [List.append_nil] at whole

/-- The statements that start before a definition ends. -/
def startedBy (definition : Node) (statements : List Node) : List Node :=
  statements.filter fun statement =>
    statement.label.start < definition.label.stop

/-- If some statement covers the definition, no statement is reached that starts
where the definition has ended. -/
theorem visibilityAmong_startedBy {statements : List Node}
    (forward : ∀ statement ∈ statements,
      statement.label.start ≤ statement.label.stop)
    (ordered : statements.Pairwise Node.EndsBefore)
    (occupied : definition.label.start < definition.label.stop)
    (found : ∃ statement ∈ statements, statement.covers definition = true) :
    ∀ current : Visibility,
      visibilityAmong definition current (startedBy definition statements) =
        visibilityAmong definition current statements := by
  induction statements with
  | nil =>
      intro current
      rfl
  | cons first rest induction =>
      intro current
      rcases List.pairwise_cons.mp ordered with ⟨behind, ordered⟩
      -- The first statement is kept: it covers the definition, or it ends
      -- before a statement that does.
      have kept (early : first.label.start < definition.label.stop) :
          startedBy definition (first :: rest) =
            first :: startedBy definition rest := by
        rw [startedBy, List.filter_cons, if_pos (decide_eq_true early)]
        rfl
      by_cases covered : first.covers definition = true
      · have bounds := Node.covers_iff.mp covered
        rw [kept (by omega), visibilityAmong, visibilityAmong, covered]
        rfl
      · rcases found with ⟨statement, member, covers⟩
        have later : statement ∈ rest := by
          rcases List.mem_cons.mp member with rfl | later
          · exact absurd covers covered
          · exact later
        have bounds := Node.covers_iff.mp covers
        have ends : first.label.stop ≤ statement.label.start :=
          behind statement later
        have starts := forward first List.mem_cons_self
        rw [kept (by omega), visibilityAmong, visibilityAmong,
          Bool.eq_false_iff.mpr covered]
        exact induction
          (fun other member => forward other (List.mem_cons_of_mem _ member))
          ordered ⟨statement, later, covers⟩ _

end SpecAudit.Method

import SpecAudit.Proofs.Method.Memoization
import SpecAudit.Proofs.Syntax.Parentheses

/-!
# Assignments that wait until a field is not set

A condition can test a single field of the object: by naming it, by asking whether
it is defined or nil, or by negating such a test, with any number of parentheses.
Its value follows from what the field holds.  An assignment is taken for an idiom
only if it assigns the very field that its condition tests, and only if it does not
run while the field holds something that counts as true.
-/

namespace SpecAudit.Method

open SpecAudit.Syntax

/-! ## Truth -/

/-- What an expression can have as its value, as far as tests tell values
apart. -/
inductive Value where
  | nil
  /-- The value `false`. -/
  | no
  /-- Any other value, all of which count as true. -/
  | something
  deriving DecidableEq

namespace Value

/-- Whether a value counts as true. -/
def isTruthy (value : Value) : Bool :=
  value == something

/-- The value of a test that answers yes or no. -/
def ofBool (answer : Bool) : Value :=
  if answer then something else no

@[simp]
theorem isTruthy_ofBool (answer : Bool) : (ofBool answer).isTruthy = answer := by
  cases answer <;> rfl

end Value

/-- Whether a node is the given field of the object, up to parentheses. -/
inductive IsVariable (name : String) : Node → Prop where
  | field {node : Node} (kind : node.type = "instance_variable")
      (text : node.text = name) : IsVariable name node
  | enclosed {node inner : Node} (parens : node.IsParenthesized inner)
      (within : IsVariable name inner) : IsVariable name node

/--
The value of a node that tests a single field, where the fields that are defined
hold the given values.  A field that is not defined reads as nil.
-/
inductive Evaluates (fields : String → Option Value) (name : String) :
    Node → Value → Prop where
  | enclosed {node inner : Node} {value : Value}
      (parens : node.IsParenthesized inner)
      (within : Evaluates fields name inner value) :
      Evaluates fields name node value
  | field {node : Node} (kind : node.type = "instance_variable")
      (text : node.text = name) :
      Evaluates fields name node ((fields name).getD .nil)
  | defined {node operand : Node} (kind : node.type = "unary")
      (asks : node.operator = "defined?")
      (found : node.child? "operand" = some operand)
      (names : IsVariable name operand) :
      Evaluates fields name node
        (if (fields name).isSome then .something else .nil)
  | isNil {node receiver : Node} {value : Value} (kind : node.type = "call")
      (asks : node.methodName = "nil?") (alone : node.arguments = [])
      (plain : node.operator ≠ "&.")
      (found : node.child? "receiver" = some receiver)
      (within : Evaluates fields name receiver value) :
      Evaluates fields name node (.ofBool (value == .nil))
  /-- A call that is passed over where the receiver is nil. -/
  | isNilUnlessNil {node receiver : Node} {value : Value}
      (kind : node.type = "call") (asks : node.methodName = "nil?")
      (alone : node.arguments = []) (guarded : node.operator = "&.")
      (found : node.child? "receiver" = some receiver)
      (within : Evaluates fields name receiver value) :
      Evaluates fields name node (if value = .nil then .nil else .no)
  | negated {node operand : Node} {value : Value} (kind : node.type = "unary")
      (negates : node.operator = "!" ∨ node.operator = "not")
      (found : node.child? "operand" = some operand)
      (within : Evaluates fields name operand value) :
      Evaluates fields name node (.ofBool !value.isTruthy)

variable {fields : String → Option Value} {name other : String}
  {node condition : Node} {value value' : Value}

theorem IsVariable.unique (left : IsVariable name node)
    (right : IsVariable other node) : name = other := by
  induction left with
  | field kind text =>
      cases right with
      | field _ text' => exact text.symm.trans text'
      | enclosed parens _ => simp [parens.1] at kind
  | enclosed parens _ induction =>
      cases right with
      | field kind _ => simp [parens.1] at kind
      | enclosed parens' within =>
          exact induction (parens.unique parens' ▸ within)

theorem Evaluates.unique (left : Evaluates fields name node value)
    (right : Evaluates fields other node value') :
    name = other ∧ value = value' := by
  induction left generalizing value' with
  | enclosed parens _ induction =>
      have parens' := parens.1
      cases right with
      | enclosed parens' within =>
          exact induction (parens.unique parens' ▸ within)
      | _ => simp_all
  | field kind text =>
      cases right with
      | enclosed parens _ => simp [parens.1] at kind
      | field _ text' => simp [← text, ← text']
      | _ => simp_all
  | defined kind asks found names =>
      cases right with
      | enclosed parens _ => simp [parens.1] at kind
      | defined _ _ found' names' =>
          rw [found, Option.some_inj] at found'
          subst found'
          simp [names.unique names']
      | _ => simp_all
  | isNil kind asks alone plain found _ induction =>
      cases right with
      | enclosed parens _ => simp [parens.1] at kind
      | isNil _ _ _ _ found' within =>
          rw [found, Option.some_inj] at found'
          subst found'
          simp [induction within]
      | _ => simp_all
  | isNilUnlessNil kind asks alone guarded found _ induction =>
      cases right with
      | enclosed parens _ => simp [parens.1] at kind
      | isNilUnlessNil _ _ _ _ found' within =>
          rw [found, Option.some_inj] at found'
          subst found'
          simp [induction within]
      | _ => simp_all
  | negated kind negates found _ induction =>
      cases right with
      | enclosed parens _ => simp [parens.1] at kind
      | negated _ _ found' within =>
          rw [found, Option.some_inj] at found'
          subst found'
          simp [induction within]
      | _ => simp_all

/-! ## Conditions that test a field -/

theorem isVariable_of_instanceVariable?
    (named : instanceVariable? node = some name) : IsVariable name node := by
  refine Node.of_unwrapped (IsVariable name) .enclosed ?_
  simp only [instanceVariable?, Option.ite_none_right_eq_some, beq_iff_eq,
    Option.some_inj] at named
  exact .field named.1 named.2

theorem IsVariable.evaluates (fields : String → Option Value)
    (names : IsVariable name node) :
    Evaluates fields name node ((fields name).getD .nil) := by
  induction names with
  | field kind text => exact .field kind text
  | enclosed parens _ induction => exact .enclosed parens induction

theorem evaluates_of_definedVariable?
    (asks : definedVariable? node = some name) :
    Evaluates fields name node
      (if (fields name).isSome then .something else .nil) := by
  refine Node.of_unwrapped (Evaluates fields name · _) .enclosed ?_
  simp only [definedVariable?, Option.ite_none_right_eq_some, Bool.and_eq_true,
    beq_iff_eq, instanceVariableIn?, Option.bind_eq_some_iff] at asks
  rcases asks with ⟨⟨kind, operator⟩, operand, found, named⟩
  exact .defined kind operator found (isVariable_of_instanceVariable? named)

/-- A test for a field that is set is true while the field holds something. -/
theorem exists_of_setTestTarget? (fields : String → Option Value)
    (tests : setTestTarget? node = some name) :
    ∃ value, Evaluates fields name node value ∧
      (fields name = some .something → value.isTruthy = true) := by
  have cases : instanceVariable? node = some name ∨
      definedVariable? node = some name := by
    unfold setTestTarget? at tests
    split at tests
    · rename_i found
      split at tests
      · exact .inr tests
      · exact .inl (found.trans tests)
    · exact .inr tests
  rcases cases with named | asks
  · refine ⟨_, (isVariable_of_instanceVariable? named).evaluates fields, ?_⟩
    intro held
    rw [held]
    rfl
  · refine ⟨_, evaluates_of_definedVariable? asks, ?_⟩
    intro held
    rw [held]
    rfl

/-- A test for a field that is not set is false while the field holds
something. -/
theorem exists_of_unsetTestTarget? (fields : String → Option Value)
    (tests : unsetTestTarget? node = some name) :
    ∃ value, Evaluates fields name node value ∧
      (fields name = some .something → value.isTruthy = false) := by
  refine Node.of_unwrapped (fun node => ∃ value, Evaluates fields name node value ∧
    (fields name = some .something → value.isTruthy = false)) ?_ ?_
  · rintro outer inner parens ⟨value, within, held⟩
    exact ⟨value, .enclosed parens within, held⟩
  · simp only [unsetTestTarget?] at tests
    split at tests
    · rename_i isNil
      simp only [Node.isCall, Bool.and_eq_true, beq_iff_eq] at isNil
      simp only [Option.ite_none_right_eq_some, List.isEmpty_iff,
        instanceVariableIn?, Option.bind_eq_some_iff] at tests
      rcases tests with ⟨alone, receiver, found, named⟩
      have within := (isVariable_of_instanceVariable? named).evaluates
        fields
      by_cases guarded : node.unwrapped.operator = "&."
      · refine ⟨_, .isNilUnlessNil isNil.1 isNil.2 alone guarded found within,
          ?_⟩
        intro held
        rw [held]
        rfl
      · refine ⟨_, .isNil isNil.1 isNil.2 alone guarded found within, ?_⟩
        intro held
        rw [held]
        rfl
    · simp only [Option.ite_none_right_eq_some, Bool.and_eq_true,
        Bool.or_eq_true, beq_iff_eq, Option.bind_eq_some_iff] at tests
      rcases tests with ⟨⟨kind, negates⟩, operand, found, tests⟩
      rcases exists_of_setTestTarget? fields tests with ⟨value, within, set⟩
      refine ⟨_, .negated kind negates found within, ?_⟩
      intro held
      simp [set held]

/-! ## Guarded assignments -/

/-- Whether a conditional without another arm holds a single statement. -/
inductive Guards (statement : Node) : Node → Prop where
  | modifier {node : Node}
      (kind : node.type = "if_modifier" ∨ node.type = "unless_modifier")
      (body : node.child? "body" = some statement) : Guards statement node
  | block {node clause : Node} (kind : node.type = "if" ∨ node.type = "unless")
      (alone : node.child? "alternative" = none)
      (body : node.child? "consequence" = some clause)
      (single : clause.statements = [statement]) : Guards statement node

variable {statement : Node}

theorem guardedStatement?_eq_some_iff :
    guardedStatement? node = some statement ↔ Guards statement node := by
  constructor
  · intro guarded
    unfold guardedStatement? at guarded
    split at guarded
    · rename_i kind
      exact .modifier (by simpa using kind) guarded
    · split at guarded
      · rename_i alone
        simp only [Bool.and_eq_true, Bool.or_eq_true, beq_iff_eq,
          Option.isNone_iff_eq_none] at alone
        split at guarded
        · rename_i single
          rcases Option.map_eq_some_iff.mp single with ⟨clause, body, statements⟩
          rw [Option.some_inj] at guarded
          subst guarded
          exact .block alone.1 alone.2 body statements
        · cases guarded
      · cases guarded
  · intro guards
    cases guards with
    | modifier kind body => simp [guardedStatement?, kind, body]
    | block kind alone body single =>
        rcases kind with kind | kind
        all_goals simp [guardedStatement?, kind, alone, body, single]

/-- The truth of its condition on which a conditional of a type runs the
statement that it guards. -/
def runsOn? : String → Option Bool
  | "if" | "if_modifier" => some true
  | "unless" | "unless_modifier" => some false
  | _ => none

/-- Whether a conditional that tests a single field runs the statement that it
guards. -/
def Runs (fields : String → Option Value) (node : Node) : Prop :=
  ∃ condition name value,
    node.child? "condition" = some condition ∧
      Evaluates fields name condition value ∧
      runsOn? node.type = some value.isTruthy

/-- Whether a statement assigns a field of the object. -/
def Assigns (name : String) (statement : Node) : Prop :=
  statement.type = "assignment" ∧
    ∃ left, statement.child? "left" = some left ∧ IsVariable name left

theorem Assigns.unique (assigns : Assigns name statement)
    (assigns' : Assigns other statement) : name = other := by
  rcases assigns with ⟨-, left, found, names⟩
  rcases assigns' with ⟨-, left', found', names'⟩
  rw [found, Option.some_inj] at found'
  subst found'
  exact names.unique names'

/-- Whether a conditional guards a single assignment to a field by a test of the
same field, and does not run it while the field holds something. -/
structure WaitsForUnset (name : String) (node : Node) : Prop where
  assigns : ∃ statement, Guards statement node ∧ Assigns name statement
  tests : ∃ condition, node.child? "condition" = some condition ∧
    ∀ fields, ∃ value, Evaluates fields name condition value
  waits : ∀ fields, fields name = some .something → ¬Runs fields node

/-- The test that a conditional of a type puts to its condition. -/
def unsetTest? (type : String) : Option (Node → Option String) :=
  if type == "if" || type == "if_modifier" then some unsetTestTarget?
  else if type == "unless" || type == "unless_modifier" then
    some setTestTarget?
  else none

theorem isUnsetGuardAssign_eq (node : Node) :
    isUnsetGuardAssign node =
      match unsetTest? node.type with
      | none => false
      | some test =>
        match (node.child? "condition").bind test, guardedStatement? node with
        | some target, some guarded =>
          guarded.type == "assignment" &&
            instanceVariableIn? guarded "left" == some target
        | _, _ => false :=
  rfl

theorem isUnsetGuardAssign_iff :
    isUnsetGuardAssign node = true ↔
      ∃ test condition name statement,
        unsetTest? node.type = some test ∧
          node.child? "condition" = some condition ∧
          test condition = some name ∧
          guardedStatement? node = some statement ∧
          statement.type = "assignment" ∧
          instanceVariableIn? statement "left" = some name := by
  rw [isUnsetGuardAssign_eq]
  constructor
  · intro idiom
    split at idiom
    · cases idiom
    · rename_i test chosen
      split at idiom
      · rename_i name statement tested guarded
        rcases Option.bind_eq_some_iff.mp tested with ⟨condition, found, tested⟩
        simp only [Bool.and_eq_true, beq_iff_eq] at idiom
        exact ⟨test, condition, name, statement, chosen, found, tested, guarded,
          idiom⟩
      · cases idiom
  · rintro ⟨test, condition, name, statement, chosen, found, tested, guarded,
      assigns, left⟩
    simp [chosen, found, tested, guarded, assigns, left]

/-- A condition that passes the test has a value, and does not let the statement
run while the field holds something. -/
theorem exists_of_unsetTest? {type : String} {test : Node → Option String}
    (fields : String → Option Value) (chosen : unsetTest? type = some test)
    (tested : test condition = some name) :
    ∃ value, Evaluates fields name condition value ∧
      (fields name = some .something → runsOn? type ≠ some value.isTruthy) := by
  unfold unsetTest? at chosen
  split at chosen
  · rename_i isIf
    rw [Option.some_inj] at chosen
    subst chosen
    rcases exists_of_unsetTestTarget? fields tested with
      ⟨value, evaluates, unset⟩
    refine ⟨value, evaluates, ?_⟩
    intro held
    simp only [Bool.or_eq_true, beq_iff_eq] at isIf
    rcases isIf with rfl | rfl
    all_goals simp [runsOn?, unset held]
  · split at chosen
    · rename_i isUnless
      rw [Option.some_inj] at chosen
      subst chosen
      rcases exists_of_setTestTarget? fields tested with ⟨value, evaluates, set⟩
      refine ⟨value, evaluates, ?_⟩
      intro held
      simp only [Bool.or_eq_true, beq_iff_eq] at isUnless
      rcases isUnless with rfl | rfl
      all_goals simp [runsOn?, set held]
    · cases chosen

theorem exists_waitsForUnset (idiom : isUnsetGuardAssign node = true) :
    ∃ name, WaitsForUnset name node := by
  rcases isUnsetGuardAssign_iff.mp idiom with
    ⟨test, condition, name, statement, chosen, found, tested, guarded, assigns,
      assigned⟩
  rcases Option.bind_eq_some_iff.mp assigned with ⟨left, atLeft, named⟩
  have answers := fun fields => exists_of_unsetTest? fields chosen tested
  refine ⟨name, ?_, ?_, ?_⟩
  · exact ⟨statement, guardedStatement?_eq_some_iff.mp guarded, assigns, left,
      atLeft, isVariable_of_instanceVariable? named⟩
  · refine ⟨condition, found, ?_⟩
    intro fields
    rcases answers fields with ⟨value, evaluates, -⟩
    exact ⟨value, evaluates⟩
  · rintro fields held ⟨condition', other, value', found', evaluates', runs⟩
    rw [found, Option.some_inj] at found'
    subst found'
    rcases answers fields with ⟨value, evaluates, waits⟩
    apply waits held
    rw [(evaluates.unique evaluates').2]
    exact runs

/-- A guarded assignment is no other idiom than this one. -/
theorem isUnsetGuardAssign_of_isMemoization (guards : Guards statement node)
    (assigns : statement.type = "assignment")
    (idiom : isMemoization node = true) : isUnsetGuardAssign node = true := by
  have conditional : node.type ≠ "operator_assignment" ∧
      node.type ≠ "binary" := by
    cases guards with
    | modifier kind _ => rcases kind with kind | kind <;> simp [kind]
    | block kind _ _ _ => rcases kind with kind | kind <;> simp [kind]
  have noReturn : isDefinedGuard node = false := by
    rw [← guardedStatement?_eq_some_iff] at guards
    unfold isDefinedGuard
    split
    · split
      · rename_i found
        rw [guards, Option.some_inj] at found
        subst found
        simp [assigns]
      · rfl
    · rfl
  simpa [isMemoization, isOrAssign, isOrDefault, conditional, noReturn] using
    idiom

/--
A conditional that is taken for a guarded assignment of a field tests the same
field, and does not run the assignment while the field holds something.  So an
assignment that its guard can run at such a time, or whose guard tests another
field, is no idiom.
-/
theorem isUnsetGuardAssign_waits (node : Node) :
    (isUnsetGuardAssign node = true → ∃ name, WaitsForUnset name node) ∧
      ∀ statement name, Guards statement node → Assigns name statement →
        ((∃ fields, fields name = some .something ∧ Runs fields node) ∨
          ∃ condition fields other value,
            node.child? "condition" = some condition ∧
              Evaluates fields other condition value ∧ other ≠ name) →
        isMemoization node = false := by
  refine ⟨exists_waitsForUnset, ?_⟩
  intro statement name guards assigns exposed
  rw [← Bool.not_eq_true]
  intro idiom
  rcases exists_waitsForUnset
      (isUnsetGuardAssign_of_isMemoization guards assigns.1 idiom) with
    ⟨name', ⟨statement', guards', assigns'⟩, ⟨condition', found', tests⟩, waits⟩
  have sameStatement : statement' = statement := by
    rw [← guardedStatement?_eq_some_iff] at guards guards'
    exact Option.some_inj.mp (guards'.symm.trans guards)
  subst sameStatement
  have sameName : name' = name := assigns'.unique assigns
  subst sameName
  rcases exposed with ⟨fields, held, runs⟩ |
    ⟨condition, fields, other, value, found, evaluates, differs⟩
  · exact waits fields held runs
  · rw [found, Option.some_inj] at found'
    subst found'
    rcases tests fields with ⟨value', evaluates'⟩
    exact differs (evaluates.unique evaluates').1

/-- A node of a sample, with its type, the field it fills and its text. -/
def termNode (type : String) (field? : Option String) (text : String)
    (children : List Node) : Node :=
  .node { (default : Label) with type, field?, named := true, text } children

/-- The negation of a field in parentheses, as a condition. -/
def negatedTest (tested : String) : Node :=
  termNode "unary" (some "condition") "" [
    termNode "!" (some "operator") "!" [],
    termNode "parenthesized_statements" (some "operand") "" [
      termNode "instance_variable" none tested []]]

/-- An assignment to a field that is guarded by such a condition. -/
def negatedGuard (type assigned tested : String) : Node :=
  termNode type none "" [
    termNode "assignment" (some "body") "" [
      termNode "instance_variable" (some "left") assigned []],
    negatedTest tested]

theorem evaluates_negatedTest (fields : String → Option Value)
    (tested : String) :
    Evaluates fields tested (negatedTest tested)
      (.ofBool !((fields tested).getD .nil).isTruthy) :=
  .negated rfl (.inl rfl) rfl (.enclosed ⟨rfl, rfl⟩ (.field rfl rfl))

theorem isUnsetGuardAssign_waits_negated :
    (∃ name, WaitsForUnset name (negatedGuard "if_modifier" "@on" "@on")) ∧
      isMemoization (negatedGuard "unless_modifier" "@on" "@on") = false ∧
      isMemoization (negatedGuard "if_modifier" "@on" "@off") = false := by
  refine ⟨(isUnsetGuardAssign_waits _).1 (by decide), ?_, ?_⟩
  · apply (isUnsetGuardAssign_waits _).2 _ "@on" (.modifier (.inr rfl) rfl)
      ⟨rfl, _, rfl, .field rfl rfl⟩
    refine .inl ⟨fun _ => some .something, rfl, _, _, _, rfl,
      evaluates_negatedTest _ "@on", rfl⟩
  · apply (isUnsetGuardAssign_waits _).2 _ "@on" (.modifier (.inl rfl) rfl)
      ⟨rfl, _, rfl, .field rfl rfl⟩
    refine .inr ⟨_, fun _ => none, _, _, rfl, evaluates_negatedTest _ "@off",
      by decide⟩

end SpecAudit.Method

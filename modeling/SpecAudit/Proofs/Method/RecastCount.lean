import Mathlib.Algebra.BigOperators.Group.Multiset.Basic
import Mathlib.Data.Multiset.AddSub
import SpecAudit.Proofs.Method.RecastIdioms
import SpecAudit.Proofs.Method.Weight

/-!
# Branches in another form

A recast tree has the nodes of the other tree, each recast, but for comments,
clauses and parentheses, which contribute nothing.  Nodes contribute what they
contributed, idioms stay idioms, and a chain keeps its links.  So a method has as
many branches as before.
-/

namespace SpecAudit.Method

open SpecAudit.Syntax

variable {renumber : Nat → Nat} {word : String}
  {old new node condition clause statement : Node}

/-! ## Contributions -/

theorem Kept.continuation?_rel (kept : Kept renumber old new) :
    Option.Rel (Recast renumber) (continuation? old) (continuation? new) := by
  have same : new.type = old.type := kept.labels.type
  unfold continuation?
  rcases rel_cases (kept.child? "alternative") with
    ⟨missing, missing'⟩ | ⟨arm, arm', found, found', matched⟩
  · rw [missing, missing']
    exact .none
  · have blind : IsBlind (continues old.type) := by
      constructor <;> simp [continues]
    have sameArm := matched.2.apply_type _ blind
    rw [found, found']
    simp only [same, sameArm]
    split
    · exact .some matched.2
    · exact .none

/-- What continues the chain of a node is recast with the node. -/
theorem Recast.continuation?_rel (recast : Recast renumber old new) :
    Option.Rel (Recast renumber) (continuation? old) (continuation? new) := by
  cases recast with
  | keep labels fits below =>
      exact (Kept.of_below labels fits below).continuation?_rel
  | reform isWord modifier _ _ _ _ _ _ form =>
      have ends {word : String} {statement condition node : Node}
          (isWord : word = "if" ∨ word = "unless")
          (modifier : IsModifier word statement condition node) :
          continuation? node = none := by
        have kind := modifier.kind
        rcases isWord with rfl | rfl
        all_goals apply continuation?_eq_none <;> simp [kind]
      have ends' : continuation? new = none := by
        rcases form with modifier' | block
        · exact ends isWord modifier'
        · rw [continuation?, block.child?_alternative]
      rw [ends isWord modifier, ends']
      exact .none

theorem Recast.chainLength_eq :
    ∀ {new : Node}, Recast renumber old new →
      chainLength new = chainLength old := by
  induction old using Node.induction with
  | step old induction =>
      intro new recast
      rcases rel_cases recast.continuation?_rel with
        ⟨ends, ends'⟩ | ⟨next, next', continued, continued', inner⟩
      · rw [chainLength_eq_zero ends, chainLength_eq_zero ends']
      · have isChild : next ∈ old.children :=
          List.mem_of_find?_eq_some (continuation?_eq_some_iff.mp continued).1
        rw [chainLength_of_continuation? continued,
          chainLength_of_continuation? continued', induction next isChild inner]

theorem Kept.branchKind_eq (kept : Kept renumber old new) :
    branchKind new = branchKind old := by
  have same : new.type = old.type := kept.labels.type
  have sameCall : new.isCall = old.isCall := by
    rw [Node.isCall, same, Node.isCall]
  simp only [branchKind, same, sameCall, kept.operator_eq]

theorem map_type_eq (property : String → Bool) (blind : IsBlind property)
    {nodes nodes' : List Node}
    (listed : List.Forall₂ (Matches renumber) nodes nodes') :
    (nodes'.map Node.type).map property =
      (nodes.map Node.type).map property := by
  induction listed with
  | nil => rfl
  | cons matched _ induction =>
      have same := matched.2.apply_type property blind
      rw [List.map_cons, List.map_cons, List.map_cons, List.map_cons, same,
        induction]

theorem Kept.multiwayBranches_eq (kept : Kept renumber old new) :
    multiwayBranches new = multiwayBranches old := by
  -- Clauses and an `else` are told by tests of types.
  have clauses (types : List String) :
      (types.filter ["when", "in_clause"].contains).length =
        ((types.map ["when", "in_clause"].contains).filter id).length := by
    rw [List.filter_map, List.length_map]
    rfl
  have others (types : List String) :
      types.contains "else" = (types.map ("else" == ·)).any id := by
    rw [List.contains_eq_any_beq, List.any_map]
    rfl
  have listed := kept.namedChildren
  simp only [multiwayBranches, clauses, others,
    map_type_eq ["when", "in_clause"].contains (by decide) listed,
    map_type_eq ("else" == ·) (by decide) listed]

theorem Kept.branchContribution_eq (kept : Kept renumber old new)
    (chain : chainLength new = chainLength old) :
    branchContribution new = branchContribution old := by
  have same : new.type = old.type := kept.labels.type
  have calls : callBranches new = callBranches old := by
    simp only [callBranches, same, kept.operator_eq, kept.methodName_eq]
  simp only [branchContribution, kept.branchKind_eq, chain,
    kept.multiwayBranches_eq, calls]

theorem Recast.branchContribution_eq (recast : Recast renumber old new) :
    branchContribution new = branchContribution old := by
  have same := recast.apply_type isConditionalType (by decide)
  cases conditional : isConditionalType old.type with
  | true =>
      rw [branchContribution_of_conditional conditional,
        branchContribution_of_conditional (same.trans conditional),
        recast.chainLength_eq]
  | false =>
      have noGuard : isGuardType old.type = false := by
        simp only [isConditionalType, isGuardType, List.contains_cons,
          Bool.or_eq_false_iff] at conditional ⊢
        simp [conditional]
      exact (recast.kept noGuard).branchContribution_eq recast.chainLength_eq

/-- What the node contributes that continues the chain of a node. -/
def nextContribution (node : Node) : Nat :=
  match continuation? node with
  | some next => branchContribution next
  | none => 0

theorem Recast.nextContribution_eq (recast : Recast renumber old new) :
    nextContribution new = nextContribution old := by
  unfold nextContribution
  rcases rel_cases recast.continuation?_rel with
    ⟨ends, ends'⟩ | ⟨next, next', continued, continued', inner⟩
  · rw [ends, ends']
  · rw [continued, continued']
    exact inner.branchContribution_eq

/-- What a node contributes unless it is left out. -/
def keptContribution (ignoreMemoization : Bool) (node : Node) : Nat :=
  if !(ignoreMemoization && isMemoization node) then branchContribution node
  else 0

theorem Recast.keptContribution_eq (injective : Function.Injective renumber)
    (recast : Recast renumber old new) (ignoreMemoization : Bool) :
    keptContribution ignoreMemoization new =
      keptContribution ignoreMemoization old := by
  rw [keptContribution, keptContribution, recast.isMemoization_eq injective,
    recast.branchContribution_eq]

/-! ## Links -/

/-- Links are no idioms, so they are counted unless they are passed over. -/
theorem unlinked_add_linked (ignoreMemoization : Bool)
    (occurrence : Occurrence) :
    (if !isLink occurrence && isKept ignoreMemoization occurrence then
        branchContribution occurrence.node else 0) +
        (if isLink occurrence then branchContribution occurrence.node else 0) =
      keptContribution ignoreMemoization occurrence.node := by
  change _ = if isKept ignoreMemoization occurrence then _ else 0
  cases links : isLink occurrence with
  | false => simp
  | true =>
      have kept : isKept ignoreMemoization occurrence = true := by
        rw [isKept, Bool.not_eq_true', ← Bool.not_eq_true, Bool.and_eq_true]
        rintro ⟨-, idiom⟩
        have unlinked := (isApart_of_isMemoization idiom).at_occurrence.1
        rw [links] at unlinked
        cases unlinked
      simp [kept]

/-- The branches of a method and what the links contribute that they pass over
are what all nodes contribute. -/
theorem countBranches_add_next {method : Node} (wellFormed : method.WellFormed)
    (defines : isDefinition method = true) (ignoreMemoization : Bool) :
    countBranches ignoreMemoization method +
        (method.descendants.map nextContribution).sum =
      (method.descendants.map (keptContribution ignoreMemoization)).sum := by
  let place : Occurrence := ⟨method, []⟩
  have part : place.node.WellFormed := wellFormed
  have ends : continuation? place.node = none :=
    continuation?_eq_none_of_isDefinition defines
  have links := sum_links_below (fun inner => branchContribution inner.node)
    part
  have unfollowed : nextValue (fun inner => branchContribution inner.node)
      place = 0 := by
    rw [nextValue, ends]
  have total := congrArg List.sum (List.map_congr_left
    fun inner (_ : inner ∈ place.below) =>
      unlinked_add_linked ignoreMemoization inner)
  rw [List.sum_map_add, links, unfollowed, Nat.add_zero, ← sum_map_filter,
    ← countBranches_eq_sum_below part ends] at total
  have nodes : method.descendants = place.below.map Occurrence.node :=
    (Occurrence.map_node_below place).symm
  rw [nodes, List.map_map, List.map_map]
  exact total

/-! ## Nodes -/

/-- Whether a node only gives others their form. -/
def isShell (node : Node) : Bool :=
  ["comment", "then", "parenthesized_statements"].contains node.type

/-- The named nodes of a list and below it that are more than a form. -/
def contents (nodes : List Node) : Multiset Node :=
  ((Node.descendantsOf nodes).filter fun node => !isShell node : List Node)

theorem contents_append (left right : List Node) :
    contents (left ++ right) = contents left + contents right := by
  rw [contents, Node.descendantsOf_append, List.filter_append]
  rfl

theorem contents_cons (first : Node) (rest : List Node) :
    contents (first :: rest) = contents [first] + contents rest :=
  contents_append [first] rest

theorem contents_unnamed (unnamed : node.label.named = false) :
    contents [node] = 0 := by
  simp [contents, Node.descendantsOf, unnamed]

theorem contents_shell (named : node.label.named = true)
    (shell : isShell node = true) : contents [node] = contents node.children := by
  rcases node with ⟨label, children⟩
  rw [Node.label_node] at named
  simp [contents, Node.descendantsOf, Node.descendants, named, shell]

theorem contents_node (named : node.label.named = true)
    (noShell : isShell node = false) :
    contents [node] = node ::ₘ contents node.children := by
  rcases node with ⟨label, children⟩
  rw [Node.label_node] at named
  simp [contents, Node.descendantsOf, Node.descendants, named, noShell]

theorem isShell_of_isRemark (remark : isRemark node = true) :
    isShell node = true := by
  rw [isShell, type_eq_of_isRemark remark]
  decide

theorem contents_withoutRemarks (nodes : List Node) :
    contents (withoutRemarks nodes) = contents nodes := by
  induction nodes with
  | nil => rfl
  | cons first rest induction =>
      rw [contents_cons first, withoutRemarks, List.filter_cons]
      cases remark : isRemark first with
      | false =>
          rw [Bool.not_false, if_pos rfl, contents_cons]
          exact congrArg _ induction
      | true =>
          have nothing : contents [first] = 0 := by
            cases named : first.label.named with
            | false => exact contents_unnamed named
            | true =>
                rw [contents_shell named (isShell_of_isRemark remark)]
                simp only [isRemark, Bool.and_eq_true, List.isEmpty_iff]
                  at remark
                rw [remark.2]
                rfl
          rw [nothing, zero_add]
          exact induction

theorem IsEnclosed.contents_eq (enclosed : IsEnclosed condition node) :
    contents [node] = contents [condition] := by
  induction enclosed with
  | bare => rfl
  | @parens node _ kind named parts _ _ induction =>
      have shell : isShell node = true := by
        rw [isShell, kind]
        decide
      rw [contents_shell named shell, ← contents_withoutRemarks, parts,
        induction]

theorem IsClause.contents_eq (holds : IsClause statement clause) :
    contents [clause] = contents [statement] := by
  have shell : isShell clause = true := by
    rw [isShell, holds.kind]
    decide
  rw [contents_shell holds.named shell, ← contents_withoutRemarks, holds.parts]

theorem IsModifier.contents_eq
    (modifier : IsModifier word statement condition node) :
    contents node.children = contents [statement] + contents [condition] := by
  rw [← contents_withoutRemarks, modifier.parts, contents_cons]

theorem IsBlock.contents_eq (block : IsBlock word statement condition node) :
    contents node.children = contents [statement] + contents [condition] := by
  rcases block.parts with ⟨clause, holds, parts⟩
  rw [← contents_withoutRemarks, parts, contents_cons, holds.contents_eq,
    add_comm]

/-- A node and those below it are recast if those below it are. -/
theorem Recast.contents_singleton (recast : Recast renumber old new)
    (below : Multiset.Rel (Recast renumber) (contents old.children)
      (contents new.children)) :
    Multiset.Rel (Recast renumber) (contents [old]) (contents [new]) := by
  have sameNamed := recast.named_eq
  have sameShell : isShell new = isShell old :=
    recast.apply_type ["comment", "then", "parenthesized_statements"].contains
      (by decide)
  cases named : old.label.named with
  | false =>
      rw [contents_unnamed named, contents_unnamed (sameNamed.trans named)]
      exact .zero
  | true =>
      cases shell : isShell old with
      | true =>
          rw [contents_shell named shell,
            contents_shell (sameNamed.trans named) (sameShell.trans shell)]
          exact below
      | false =>
          rw [contents_node named shell,
            contents_node (sameNamed.trans named) (sameShell.trans shell)]
          exact .cons recast below

/-- The nodes below a recast node are recast, whatever form they get. -/
theorem Recast.contents_children :
    ∀ {new : Node}, Recast renumber old new →
      Multiset.Rel (Recast renumber) (contents old.children)
        (contents new.children) := by
  induction old using Node.induction with
  | step old induction =>
      intro new recast
      cases recast with
      | keep labels fits below =>
          rw [Node.children_node] at induction
          rw [Node.children_node, Node.children_node]
          clear fits
          induction below with
          | nil => exact .zero
          | @cons first first' rest rest' recast _ others =>
              rw [contents_cons first, contents_cons first']
              refine .add (recast.contents_singleton
                (induction first List.mem_cons_self recast)) (others ?_)
              intro child member
              exact induction child (List.mem_cons_of_mem first member)
      | reform _ modifier _ _ _ statements conditions enclosed form =>
          have isChild (child : Node)
              (part : child ∈ withoutRemarks old.children) :
              child ∈ old.children :=
            List.mem_of_mem_filter part
          rw [modifier.parts] at isChild
          have reformed := form.elim IsModifier.contents_eq IsBlock.contents_eq
          rw [modifier.contents_eq, reformed, enclosed.contents_eq]
          exact .add
            (statements.contents_singleton
              (induction _ (isChild _ (by simp)) statements))
            (conditions.contents_singleton
              (induction _ (isChild _ (by simp)) conditions))

/-! ## Sums -/

theorem type_of_isShell (shell : isShell node = true) :
    node.type = "comment" ∨ node.type = "then" ∨
      node.type = "parenthesized_statements" := by
  simpa [isShell] using shell

theorem continuation?_eq_none_of_isShell (shell : isShell node = true) :
    continuation? node = none := by
  rcases type_of_isShell shell with kind | kind | kind
  all_goals apply continuation?_eq_none <;> simp [kind]

theorem branchContribution_of_isShell (shell : isShell node = true) :
    branchContribution node = 0 := by
  rcases type_of_isShell shell with kind | kind | kind
  all_goals
    simp [branchContribution, branchKind, isConditionalType, isMultiwayType,
      Node.isCall, kind]

/-- What shells have no part in is a sum over the other nodes. -/
theorem sum_descendants_eq {value : Node → Nat}
    (nothing : ∀ node, isShell node = true → value node = 0) (node : Node) :
    (node.descendants.map value).sum =
      ((contents node.children).map value).sum := by
  rw [Node.descendants_eq_descendantsOf, contents, Multiset.map_coe,
    Multiset.sum_coe, sum_map_filter]
  congr 1
  apply List.map_congr_left
  intro inner _
  cases shell : isShell inner with
  | true => simp [nothing inner shell]
  | false => simp

theorem Recast.sum_descendants {value : Node → Nat}
    (agree : ∀ {old new}, Recast renumber old new → value new = value old)
    (nothing : ∀ node, isShell node = true → value node = 0)
    (recast : Recast renumber old new) :
    (new.descendants.map value).sum = (old.descendants.map value).sum := by
  have same : (contents old.children).map value =
      (contents new.children).map value := by
    refine Multiset.rel_eq.mp (Multiset.rel_map.mpr ?_)
    exact recast.contents_children.mono fun _ _ _ _ inner => (agree inner).symm
  rw [sum_descendants_eq nothing, sum_descendants_eq nothing, same]

/-! ## Methods -/

theorem Recast.isDefinition_eq (recast : Recast renumber old new) :
    isDefinition new = isDefinition old :=
  recast.apply_type
    (fun type => type == "method" || type == "singleton_method") (by decide)

theorem Recast.countBranches_eq (injective : Function.Injective renumber)
    (wellFormed : old.WellFormed) (wellFormed' : new.WellFormed)
    (defines : isDefinition old = true) (recast : Recast renumber old new)
    (ignoreMemoization : Bool) :
    countBranches ignoreMemoization new =
      countBranches ignoreMemoization old := by
  have total := countBranches_add_next wellFormed defines ignoreMemoization
  have total' := countBranches_add_next wellFormed'
    (recast.isDefinition_eq.trans defines) ignoreMemoization
  have next : (new.descendants.map nextContribution).sum =
      (old.descendants.map nextContribution).sum := by
    refine recast.sum_descendants Recast.nextContribution_eq ?_
    intro node shell
    rw [nextContribution, continuation?_eq_none_of_isShell shell]
  have contributed :
      (new.descendants.map (keptContribution ignoreMemoization)).sum =
        (old.descendants.map (keptContribution ignoreMemoization)).sum := by
    refine recast.sum_descendants ?_ ?_
    · intro old new recast
      exact recast.keptContribution_eq injective ignoreMemoization
    · intro node shell
      rw [keptContribution, branchContribution_of_isShell shell, ite_self]
  -- Chains keep their links, so what those contribute cancels out.
  rw [next, contributed, ← total] at total'
  exact Nat.add_right_cancel total'

/-- A method in a tree is recast with the tree. -/
theorem Recast.exists_method {root root' method : Node}
    (recast : Recast renumber root root')
    (stands : method ∈ root :: root.descendants)
    (defines : isDefinition method = true) :
    ∃ method' ∈ root' :: root'.descendants, Recast renumber method method' := by
  rcases List.mem_cons.mp stands with rfl | lies
  · exact ⟨root', List.mem_cons_self, recast⟩
  · have noShell : isShell method = false := by
      simp only [isDefinition, Bool.or_eq_true, beq_iff_eq] at defines
      rcases defines with kind | kind <;> simp [isShell, kind]
    have member : method ∈ contents root.children := by
      rw [Node.descendants_eq_descendantsOf] at lies
      simpa [contents, noShell] using lies
    rcases Multiset.exists_mem_of_rel_of_mem recast.contents_children member
      with ⟨method', member', inner⟩
    refine ⟨method', List.mem_cons_of_mem _ ?_, inner⟩
    rw [contents, Multiset.mem_coe] at member'
    rw [Node.descendants_eq_descendantsOf]
    exact List.mem_of_mem_filter member'

/--
A recast tree has every method of the other tree under its new number, with as
many branches as before, whether idioms are to be ignored or not: a guard counts
alike behind its statement and in front of it, and with its condition in
parentheses.
-/
theorem countBranches_recast {root root' method : Node}
    (injective : Function.Injective renumber) (wellFormed : root.WellFormed)
    (wellFormed' : root'.WellFormed) (recast : Recast renumber root root')
    (stands : method ∈ root :: root.descendants)
    (defines : isDefinition method = true) :
    (∃ method' ∈ root' :: root'.descendants,
        method'.id = renumber method.id) ∧
      ∀ method' ∈ root' :: root'.descendants,
        method'.id = renumber method.id →
        ∀ ignoreMemoization,
          countBranches ignoreMemoization method' =
            countBranches ignoreMemoization method := by
  rcases recast.exists_method stands defines with ⟨found, stands', inner⟩
  refine ⟨⟨found, stands', inner.id_eq⟩, ?_⟩
  intro method' listed sameId ignoreMemoization
  -- Numbers tell nodes apart, so this is the method that was found.
  have same : method' = found :=
    List.inj_on_of_nodup_map wellFormed'.distinct listed stands'
      (sameId.trans inner.id_eq.symm)
  subst same
  exact inner.countBranches_eq injective (wellFormed.of_mem stands)
    (wellFormed'.of_mem listed) defines ignoreMemoization

/-- A test whether a field is nil. -/
def sampleTest (field? : Option String) : Node :=
  sampleNode 7 "call" field? [
    sampleNode 8 "instance_variable" "receiver" [],
    sampleNode 9 "nil?" "method" []]

/-- An assignment to the same field. -/
def sampleAssignment (field? : Option String) : Node :=
  sampleNode 4 "assignment" field? [
    sampleNode 5 "instance_variable" "left" [],
    sampleNode 6 "integer" "right" []]

/-- The assignment with the test behind it. -/
def sampleModifier : Node :=
  sampleNode 3 "if_modifier" none [
    sampleAssignment "body",
    sampleTest "condition"]

/-- The assignment with the test in front of it, in parentheses. -/
def sampleBlock : Node :=
  sampleNode 3 "if" none [
    sampleNode 10 "parenthesized_statements" "condition" [
      sampleNode 11 "comment" none [],
      sampleTest none],
    sampleNode 12 "then" "consequence" [
      sampleNode 13 "comment" none [],
      sampleAssignment none]]

/-- A method that holds a statement. -/
def enclosingMethod (statement : Node) : Node :=
  sampleNode 1 "method" none [sampleNode 2 "identifier" "name" [], statement]

theorem recast_sampleModifier : Recast id sampleModifier sampleBlock := by
  have statements :
      Recast id (sampleAssignment "body") (sampleAssignment none) :=
    .of_children ⟨rfl, rfl, rfl, fun _ => rfl⟩
  have conditions : Recast id (sampleTest "condition") (sampleTest none) :=
    .of_children ⟨rfl, rfl, rfl, fun _ => rfl⟩
  have clause : IsClause (sampleAssignment none)
      (sampleNode 12 "then" "consequence" [
        sampleNode 13 "comment" none [], sampleAssignment none]) :=
    ⟨rfl, rfl, rfl, rfl, rfl, by decide⟩
  exact .reform (.inl rfl) ⟨rfl, rfl, rfl, rfl⟩ (by decide) rfl rfl statements
    conditions (.parens rfl rfl rfl rfl .bare) (.inr ⟨rfl, rfl, _, clause, rfl⟩)

theorem countBranches_recast_sample :
    countBranches true (enclosingMethod sampleBlock) = 0 ∧
      countBranches false (enclosingMethod sampleBlock) = 2 := by
  have recast : Recast id (enclosingMethod sampleModifier) (enclosingMethod sampleBlock) :=
    .keep ⟨rfl, rfl, rfl, fun _ => rfl⟩
      (.cons (.refl _) (.cons ⟨rfl, by decide⟩ .nil))
      (.cons (.of_children ⟨rfl, rfl, rfl, fun _ => rfl⟩)
        (.cons recast_sampleModifier .nil))
  have counts := (countBranches_recast Function.injective_id
    (by decide +kernel) (by decide +kernel) recast List.mem_cons_self rfl).2
    (enclosingMethod sampleBlock) List.mem_cons_self rfl
  constructor
  · rw [counts true]
    decide +kernel
  · rw [counts false]
    decide +kernel

end SpecAudit.Method

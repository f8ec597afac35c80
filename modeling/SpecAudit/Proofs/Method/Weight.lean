import Mathlib.Algebra.BigOperators.Group.List.Basic
import SpecAudit.Method.Site
import SpecAudit.Proofs.Method.Memoization

/-!
# What each node is worth

Heads of chains count for the links behind them, which are passed over.  The
branches of a method are as well the sum of what each node below it is worth by
its type and its place alone.  Memoization idioms stand in no chain, so leaving
them out takes away what they are worth and nothing else.
-/

namespace SpecAudit.Method

open SpecAudit.Syntax

/-- Whether a node is the alternative of a ternary. -/
def isTernaryArm (occurrence : Occurrence) : Bool :=
  match occurrence.ancestors with
  | [] => false
  | parent :: _ =>
    parent.type == "conditional" && isAlternative parent occurrence.node

/-- The branches that a node is worth by its type and its place. -/
def weight (occurrence : Occurrence) : Nat :=
  match occurrence.node.type with
  | "if" | "unless" | "if_modifier" | "unless_modifier" => 2
  | "conditional" => if isTernaryArm occurrence then 1 else 2
  | "elsif" =>
    if isReachedFromIf occurrence.ancestors occurrence.node then 1 else 0
  | "case" | "case_match" => multiwayBranches occurrence.node
  | "binary" =>
    if isShortCircuit occurrence.node.operator then 1
    else if isBitwise occurrence.node.operator then 1
    else 0
  | "operator_assignment" =>
    if ["||=", "&&="].contains occurrence.node.operator then 2 else 0
  | "call" => if isBitwise occurrence.node.methodName then 1 else 0
  | _ => 0

/-! ## Weights and contributions -/

theorem isLink_of_ternary {occurrence : Occurrence}
    (isTernary : occurrence.node.type = "conditional") :
    isLink occurrence = isTernaryArm occurrence := by
  unfold isLink isTernaryArm
  cases occurrence.ancestors with
  | nil => rfl
  | cons parent above =>
      simp [isTernary, continues, Bool.and_comm]

theorem isLink_of_isReachedFromIf {occurrence : Occurrence}
    (isElsif : occurrence.node.type = "elsif")
    (reached : isReachedFromIf occurrence.ancestors occurrence.node = true) :
    isLink occurrence = true := by
  unfold isLink
  cases placed : occurrence.ancestors with
  | nil => simp [placed, isReachedFromIf] at reached
  | cons parent above =>
      simp only [placed, isReachedFromIf, Bool.and_eq_true, Bool.or_eq_true,
        beq_iff_eq] at reached
      rcases reached with ⟨stands, isIf | ⟨isElsif', -⟩⟩
      · simp [stands, isElsif, continues, isIf]
      · simp [stands, isElsif, continues, isElsif']

/-- A node that no chain can pass over contributes what it is worth. -/
theorem weight_add_followers {occurrence : Occurrence}
    (noElsif : occurrence.node.type ≠ "elsif")
    (noTernary : occurrence.node.type ≠ "conditional") :
    weight occurrence + followers occurrence =
      branchContribution occurrence.node := by
  by_cases isIf : occurrence.node.type = "if"
  · have conditional : isConditionalType occurrence.node.type = true := by
      rw [isIf]
      decide
    rw [branchContribution_of_conditional conditional]
    simp [weight, followers, isInChain, isIf]
  · rw [followers_eq_zero isIf noElsif noTernary, Nat.add_zero]
    have ends := chainLength_eq_zero
      (continuation?_eq_none isIf noElsif noTernary)
    unfold weight
    split
    all_goals rename_i kind
    · exact absurd kind isIf
    · rw [branchContribution_of_conditional (by rw [kind]; decide), ends]
    · rw [branchContribution_of_conditional (by rw [kind]; decide), ends]
    · rw [branchContribution_of_conditional (by rw [kind]; decide), ends]
    · exact absurd kind noTernary
    · exact absurd kind noElsif
    · exact (branchContribution_of_multiway (by rw [kind]; decide)).symm
    · exact (branchContribution_of_multiway (by rw [kind]; decide)).symm
    · exact (branchContribution_of_binary kind).symm
    · exact (branchContribution_of_assignment kind).symm
    · exact (branchContribution_of_call kind).symm
    · simp_all [branchContribution, branchKind, isConditionalType,
        isMultiwayType, Node.isCall]

theorem contribution_add_carried_of_ternary {occurrence : Occurrence}
    (isTernary : occurrence.node.type = "conditional") :
    (if isLink occurrence then 0 else branchContribution occurrence.node) +
        carried occurrence =
      weight occurrence + followers occurrence := by
  have contributes : branchContribution occurrence.node =
      2 + chainLength occurrence.node :=
    branchContribution_of_conditional (by rw [isTernary]; decide)
  have inChain : isInChain occurrence = true := by
    simp [isInChain, isTernary]
  have worth : weight occurrence =
      if isTernaryArm occurrence then 1 else 2 := by
    simp [weight, isTernary]
  rw [carried, followers, inChain, worth, contributes,
    isLink_of_ternary isTernary]
  cases isTernaryArm occurrence with
  | true => simp [Nat.add_comm]
  | false => simp

theorem contribution_add_carried_of_elsif {occurrence : Occurrence}
    (isElsif : occurrence.node.type = "elsif") :
    (if isLink occurrence then 0 else branchContribution occurrence.node) +
        carried occurrence =
      weight occurrence + followers occurrence := by
  have contributes : branchContribution occurrence.node = 0 := by
    simp [branchContribution, branchKind, isConditionalType, isMultiwayType,
      Node.isCall, isElsif]
  have inChain : isInChain occurrence =
      isReachedFromIf occurrence.ancestors occurrence.node := by
    simp [isInChain, isElsif]
  have worth : weight occurrence =
      if isReachedFromIf occurrence.ancestors occurrence.node then 1 else 0 := by
    simp [weight, isElsif]
  rw [carried, followers, inChain, worth, contributes, ite_self]
  cases reached : isReachedFromIf occurrence.ancestors occurrence.node with
  | true =>
      rw [isLink_of_isReachedFromIf isElsif reached]
      simp [Nat.add_comm]
  | false => simp

/--
What a node contributes unless it is a link, and what it carries if it is one,
is what it is worth and what follows it.
-/
theorem contribution_add_carried (occurrence : Occurrence) :
    (if isLink occurrence then 0 else branchContribution occurrence.node) +
        carried occurrence =
      weight occurrence + followers occurrence := by
  by_cases isTernary : occurrence.node.type = "conditional"
  · exact contribution_add_carried_of_ternary isTernary
  · by_cases isElsif : occurrence.node.type = "elsif"
    · exact contribution_add_carried_of_elsif isElsif
    · have unlinked := isLink_eq_false isElsif isTernary
      have nothing : carried occurrence = 0 := by
        simp [carried, unlinked]
      rw [weight_add_followers isElsif isTernary, unlinked, nothing]
      rfl

/-! ## Idioms -/

/-- What an idiom is worth, and that no chain goes through it. -/
theorem IsApart.at_occurrence {occurrence : Occurrence}
    (apart : IsApart occurrence.node) :
    isLink occurrence = false ∧ followers occurrence = 0 ∧
      weight occurrence = if isOrDefault occurrence.node then 1 else 2 := by
  have unfollowed : followers occurrence = 0 := by
    rw [followers, apart.ends, ite_self]
  have worth := weight_add_followers apart.noElsif apart.noTernary
  rw [unfollowed, apart.contributes, Nat.add_zero] at worth
  exact ⟨isLink_eq_false apart.noElsif apart.noTernary, unfollowed, worth⟩

/-- Whether a node is to be counted among the branches of a method. -/
def isKept (ignoreMemoization : Bool) (occurrence : Occurrence) : Bool :=
  !(ignoreMemoization && isMemoization occurrence.node)

/-- Nodes that are left out neither carry anything nor are followed. -/
theorem kept_contribution_add_carried (ignoreMemoization : Bool)
    (occurrence : Occurrence) :
    (if !isLink occurrence && isKept ignoreMemoization occurrence then
        branchContribution occurrence.node else 0) + carried occurrence =
      (if isKept ignoreMemoization occurrence then weight occurrence else 0) +
        followers occurrence := by
  cases kept : isKept ignoreMemoization occurrence with
  | true =>
      have whole := contribution_add_carried occurrence
      cases links : isLink occurrence <;> simpa [links] using whole
  | false =>
      have idiom : isMemoization occurrence.node = true := by
        simp only [isKept, Bool.not_eq_false', Bool.and_eq_true] at kept
        exact kept.2
      rcases (isApart_of_isMemoization idiom).at_occurrence with
        ⟨unlinked, unfollowed, -⟩
      simp [carried, unlinked, unfollowed]

theorem sum_map_filter {α : Type} (keeps : α → Bool) (value : α → Nat)
    (list : List α) :
    ((list.filter keeps).map value).sum =
      (list.map fun item => if keeps item then value item else 0).sum := by
  induction list with
  | nil => rfl
  | cons first rest induction =>
      cases kept : keeps first <;> simp [kept, induction]

/-- What is counted are the nodes below that are kept and no links. -/
theorem countBranches_eq_sum_below {method : Occurrence}
    (wellFormed : method.node.WellFormed)
    (ends : continuation? method.node = none) (ignoreMemoization : Bool) :
    countBranches ignoreMemoization method.node =
      ((method.below.filter fun inner =>
          !isLink inner && isKept ignoreMemoization inner).map
        fun inner => branchContribution inner.node).sum := by
  have agree : ∀ inner ∈ method.below,
      (!(continuationIds method.node.descendants).contains inner.node.id &&
          !(ignoreMemoization && isMemoization inner.node)) =
        (!isLink inner && isKept ignoreMemoization inner) := by
    intro inner member
    rw [contains_continuationIds wellFormed ends member]
    rfl
  rw [← List.filter_congr agree]
  change (List.map _ (List.filter _ method.node.descendants)).sum = _
  rw [← Occurrence.map_node_below, List.filter_map, List.map_map]
  rfl

/-- A definition continues nothing. -/
theorem continuation?_eq_none_of_isDefinition {node : Node}
    (defines : isDefinition node = true) : continuation? node = none := by
  simp only [isDefinition, Bool.or_eq_true, beq_iff_eq] at defines
  rcases defines with kind | kind
  all_goals
    exact continuation?_eq_none (by simp [kind]) (by simp [kind])
      (by simp [kind])

theorem countBranches_eq_sum_kept {method : Occurrence}
    (wellFormed : method.node.WellFormed)
    (defines : isDefinition method.node = true) (ignoreMemoization : Bool) :
    countBranches ignoreMemoization method.node =
      ((method.below.filter (isKept ignoreMemoization)).map weight).sum := by
  have ends := continuation?_eq_none_of_isDefinition defines
  have unfollowed : followers method = 0 := by
    rw [followers, chainLength_eq_zero ends, ite_self]
  have links := sum_carried_below wellFormed
  have total := congrArg List.sum (List.map_congr_left
    fun inner (_ : inner ∈ method.below) =>
      kept_contribution_add_carried ignoreMemoization inner)
  -- What the links carry and what follows the nodes cancel out.
  rw [List.sum_map_add, List.sum_map_add, links, unfollowed, Nat.add_zero]
    at total
  rw [countBranches_eq_sum_below wellFormed ends, sum_map_filter,
    sum_map_filter]
  exact Nat.add_right_cancel total

/-- Idioms are worth two each, and one where they are defaults. -/
theorem sum_weight_eq (list : List Occurrence) :
    (list.map weight).sum =
      ((list.filter (isKept true)).map weight).sum +
        2 * (list.map Occurrence.node).countP
          (fun node => isMemoization node && !isOrDefault node) +
        (list.map Occurrence.node).countP isOrDefault := by
  induction list with
  | nil => rfl
  | cons first rest induction =>
      simp only [List.map_cons, List.sum_cons, List.filter_cons,
        List.countP_cons, isKept, Bool.true_and]
      cases idiom : isMemoization first.node with
      | true =>
          rcases (isApart_of_isMemoization idiom).at_occurrence with
            ⟨-, -, worth⟩
          cases defaults : isOrDefault first.node <;>
            simp [defaults, induction, worth] <;> omega
      | false =>
          have noDefault : isOrDefault first.node = false := by
            rw [isMemoization] at idiom
            simp only [Bool.or_eq_false_iff] at idiom
            exact idiom.2
          simp [noDefault, induction]
          omega

/-! ## Methods -/

/--
In a well-formed tree, the branches of a method are the sum of what the nodes
below it are worth, without idioms if these are to be ignored.  Ignoring them
takes away two for each idiom and one for each default, and never a link.
-/
theorem countBranches_eq_sum_weight {root : Node} {method : Occurrence}
    (wellFormed : root.WellFormed)
    (stands : method ∈ ⟨root, []⟩ :: root.occurrences [])
    (defines : isDefinition method.node = true) :
    (∀ ignoreMemoization,
      countBranches ignoreMemoization method.node =
        ((method.below.filter fun inner =>
            !(ignoreMemoization && isMemoization inner.node)).map
          weight).sum) ∧
      countBranches false method.node =
        countBranches true method.node +
          2 * method.node.descendants.countP
            (fun node => isMemoization node && !isOrDefault node) +
          method.node.descendants.countP isOrDefault ∧
      ∀ inner ∈ method.below, isMemoization inner.node = true →
        inner.node.type ≠ "elsif" ∧ isLink inner = false := by
  have part : method.node.WellFormed := by
    rcases List.mem_cons.mp stands with rfl | lies
    · exact wellFormed
    · apply wellFormed.of_mem_descendants
      rw [← Occurrence.map_node_below ⟨root, []⟩]
      exact List.mem_map_of_mem lies
  have counts := countBranches_eq_sum_kept part defines
  refine ⟨counts, ?_, ?_⟩
  · have everything : method.below.filter (isKept false) = method.below :=
      List.filter_eq_self.mpr fun _ _ => rfl
    rw [counts false, everything, counts true, sum_weight_eq,
      Occurrence.map_node_below]
  · intro inner _ idiom
    have apart := isApart_of_isMemoization idiom
    exact ⟨apart.noElsif, apart.at_occurrence.1⟩

/-- A node of a sample, with its number, its type and the field it fills. -/
def sampleNode (id : Nat) (type : String) (field? : Option String)
    (children : List Node) : Node :=
  .node { (default : Label) with id, type, field?, named := true, text := type }
    children

/-- A method with a chain of two links, nested ternaries and an idiom. -/
def sampleMethod : Node :=
  sampleNode 1 "method" none [
    sampleNode 2 "if" none [
      sampleNode 3 "elsif" "alternative" [
        sampleNode 4 "elsif" "alternative" []]],
    sampleNode 5 "conditional" none [
      sampleNode 6 "conditional" "alternative" []],
    sampleNode 7 "operator_assignment" none [
      sampleNode 8 "instance_variable" "left" [],
      sampleNode 9 "||=" "operator" []]]

theorem countBranches_eq_sum_weight_sample :
    countBranches true sampleMethod = 7 ∧
      countBranches false sampleMethod = 9 := by
  let root := sampleNode 0 "program" none [sampleMethod]
  have wellFormed : root.WellFormed := by
    decide +kernel
  have stands : ⟨sampleMethod, [root]⟩ ∈
      (⟨root, []⟩ : Occurrence) :: root.occurrences [] :=
    List.mem_cons_of_mem _ List.mem_cons_self
  have counts := (countBranches_eq_sum_weight wellFormed stands (by decide)).1
  constructor
  · rw [counts true]
    decide +kernel
  · rw [counts false]
    decide +kernel

end SpecAudit.Method

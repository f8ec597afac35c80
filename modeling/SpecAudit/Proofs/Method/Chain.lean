import SpecAudit.Method.BranchCount
import SpecAudit.Proofs.Method.Contribution
import SpecAudit.Proofs.Syntax.Occurrence

/-!
# Chains of conditionals

A conditional that stands as the alternative of another may continue its chain.
Below a place, what the links of chains carry is what the nodes there have
following them, and what the node of the place has following it besides: every
link is the next of one node, and its chain is one shorter.
-/

namespace SpecAudit.Method

open SpecAudit.Syntax

/-! ## Links -/

/-- Whether a node is what stands as the alternative of another. -/
def isAlternative (parent node : Node) : Bool :=
  (parent.child? "alternative").any (·.id == node.id)

theorem isAlternative_of_eq_some {parent node : Node}
    (found : parent.child? "alternative" = some node) :
    isAlternative parent node = true := by
  simp [isAlternative, found]

/-- In a well-formed tree the alternative is told by its number. -/
theorem eq_some_of_isAlternative {parent node : Node}
    (wellFormed : parent.WellFormed)
    (member : node ∈ parent.namedChildren)
    (stands : isAlternative parent node = true) :
    parent.child? "alternative" = some node := by
  cases found : parent.child? "alternative" with
  | none => simp [isAlternative, found] at stands
  | some alternative =>
      have same : alternative.id = node.id := by
        simpa [isAlternative, found] using stands
      have isChild (child : Node) (isNamed : child ∈ parent.namedChildren) :
          ⟨child, [parent]⟩ ∈ (Occurrence.mk parent []).below :=
        Occurrence.mem_below_of_mem_children
          (Occurrence.mem_children_iff.mpr ⟨isNamed, rfl⟩)
      have placed := wellFormed.eq_of_id_eq
        (isChild alternative (wellFormed.alternative_mem_namedChildren found))
        (isChild node member) same
      rw [Option.some_inj]
      exact congrArg Occurrence.node placed

/-- Whether a node continues the chain of the node it is a child of. -/
def isLink (occurrence : Occurrence) : Bool :=
  match occurrence.ancestors with
  | [] => false
  | parent :: _ =>
    isAlternative parent occurrence.node &&
      continues parent.type occurrence.node.type

/-- Whether a node in the given ones is the alternative of an `if`, or that of
an `elsif` that is itself reached in this way. -/
def isReachedFromIf : List Node → Node → Bool
  | [], _ => false
  | parent :: above, node =>
    isAlternative parent node &&
      (parent.type == "if" ||
        parent.type == "elsif" && isReachedFromIf above parent)

theorem isLink_eq_false {occurrence : Occurrence}
    (noElsif : occurrence.node.type ≠ "elsif")
    (noTernary : occurrence.node.type ≠ "conditional") :
    isLink occurrence = false := by
  unfold isLink
  split
  · rfl
  · rw [continues_eq_false noElsif noTernary, Bool.and_false]

theorem isLink_iff_continuation? {parent child : Occurrence}
    (wellFormed : parent.node.WellFormed) (member : child ∈ parent.children) :
    isLink child = true ↔ continuation? parent.node = some child.node := by
  rcases Occurrence.mem_children_iff.mp member with ⟨isNamed, placed⟩
  rw [isLink, placed, Bool.and_eq_true, continuation?_eq_some_iff]
  constructor
  · rintro ⟨stands, continued⟩
    exact ⟨eq_some_of_isAlternative wellFormed isNamed stands, continued⟩
  · rintro ⟨found, continued⟩
    exact ⟨isAlternative_of_eq_some found, continued⟩

/--
Below a node that continues nothing, the numbers collected as those of
continuations are the numbers of the links.
-/
theorem contains_continuationIds {root occurrence : Occurrence}
    (wellFormed : root.node.WellFormed)
    (ends : continuation? root.node = none)
    (member : occurrence ∈ root.below) :
    (continuationIds root.node.descendants).contains occurrence.node.id =
      isLink occurrence := by
  rw [Bool.eq_iff_iff, List.contains_iff_mem, continuationIds,
    ← Occurrence.map_node_below, List.mem_filterMap]
  constructor
  · rintro ⟨node, lies, collected⟩
    rcases List.mem_map.mp lies with ⟨parent, stands, rfl⟩
    rcases Option.map_eq_some_iff.mp collected with ⟨next, continued, same⟩
    have part : parent.node.WellFormed := by
      apply wellFormed.of_mem_descendants
      rw [← Occurrence.map_node_below]
      exact List.mem_map_of_mem stands
    have isNamed := part.alternative_mem_namedChildren
      (continuation?_eq_some_iff.mp continued).1
    have isChild : ⟨next, parent.node :: parent.ancestors⟩ ∈ parent.children :=
      Occurrence.mem_children_iff.mpr ⟨isNamed, rfl⟩
    -- Equal numbers mean equal places, so the node is the one continued to.
    have placed := wellFormed.eq_of_id_eq
      (Occurrence.mem_below_trans
        (Occurrence.mem_below_of_mem_children isChild) stands) member same
    rw [← placed, isLink_iff_continuation? part isChild]
    exact continued
  · intro links
    rcases Occurrence.exists_parent_of_mem_below member with
      ⟨parent, stands, isChild⟩
    rcases List.mem_cons.mp stands with rfl | stands
    · rw [isLink_iff_continuation? wellFormed isChild, ends] at links
      cases links
    · have lies : parent.node ∈ root.below.map Occurrence.node :=
        List.mem_map_of_mem stands
      have part : parent.node.WellFormed := by
        apply wellFormed.of_mem_descendants
        rw [← Occurrence.map_node_below]
        exact lies
      rw [isLink_iff_continuation? part isChild] at links
      refine ⟨parent.node, lies, ?_⟩
      rw [links]
      rfl

/-! ## Sums over links -/

/-- The value of the node that continues the chain of a node, if one does. -/
def nextValue (value : Occurrence → Nat) (occurrence : Occurrence) : Nat :=
  match continuation? occurrence.node with
  | some next => value ⟨next, occurrence.node :: occurrence.ancestors⟩
  | none => 0

/-- Of the children of a node, the one that continues its chain is a link. -/
theorem sum_links_children {parent : Occurrence}
    (wellFormed : parent.node.WellFormed) (value : Occurrence → Nat) :
    (parent.children.map fun child =>
        if isLink child then value child else 0).sum =
      nextValue value parent := by
  classical
  unfold nextValue
  cases continued : continuation? parent.node with
  | none =>
      have nothing : ∀ child ∈ parent.children,
          (if isLink child then value child else 0) = 0 := by
        intro child member
        have unlinked : isLink child = false := by
          rw [← Bool.not_eq_true, isLink_iff_continuation? wellFormed member,
            continued]
          simp
        simp [unlinked]
      rw [List.map_congr_left nothing]
      simp
  | some next =>
      have isNamed := wellFormed.alternative_mem_namedChildren
        (continuation?_eq_some_iff.mp continued).1
      let link : Occurrence := ⟨next, parent.node :: parent.ancestors⟩
      have isChild : link ∈ parent.children :=
        Occurrence.mem_children_iff.mpr ⟨isNamed, rfl⟩
      have links : isLink link = true :=
        (isLink_iff_continuation? wellFormed isChild).mpr continued
      have others : ∀ child, child ≠ link → child ∈ parent.children →
          (if isLink child then value child else 0) = 0 := by
        intro child other member
        have unlinked : isLink child = false := by
          rw [← Bool.not_eq_true, isLink_iff_continuation? wellFormed member,
            continued, Option.some_inj]
          intro same
          apply other
          rcases child with ⟨node, ancestors⟩
          rcases Occurrence.mem_children_iff.mp member with ⟨-, placed⟩
          simp only at same placed
          rw [placed, ← same]
        simp [unlinked]
      -- Of all children the continuation alone has a value.
      have once : parent.children.count link = 1 :=
        List.count_eq_one_of_mem wellFormed.nodup_children isChild
      rw [List.sum_map_eq_nsmul_single link _ others, once, one_nsmul,
        if_pos links]

/-- The links below a place are what continues the nodes there, and what
continues its own node. -/
theorem sum_links_below (value : Occurrence → Nat) :
    ∀ {occurrence : Occurrence}, occurrence.node.WellFormed →
      (occurrence.below.map fun inner =>
          if isLink inner then value inner else 0).sum =
        (occurrence.below.map (nextValue value)).sum +
          nextValue value occurrence := by
  intro occurrence
  induction occurrence using Occurrence.induction with
  | step occurrence induction =>
      intro wellFormed
      have inner : ∀ child ∈ occurrence.children,
          (if isLink child then value child else 0) +
              (child.below.map fun inner =>
                if isLink inner then value inner else 0).sum =
            (if isLink child then value child else 0) +
              (nextValue value child +
                (child.below.map (nextValue value)).sum) := by
        intro child member
        have part := wellFormed.of_mem_namedChildren
          (Occurrence.mem_children_iff.mp member).1
        rw [induction child member part, Nat.add_comm (nextValue value child)]
      rw [Occurrence.sum_below, Occurrence.sum_below (nextValue value),
        List.map_congr_left inner, List.sum_map_add,
        sum_links_children wellFormed, Nat.add_comm]

/-! ## What links carry -/

/-- Whether a chain that begins with an `if` or a ternary goes through a node. -/
def isInChain (occurrence : Occurrence) : Bool :=
  occurrence.node.type == "if" || occurrence.node.type == "conditional" ||
    occurrence.node.type == "elsif" &&
      isReachedFromIf occurrence.ancestors occurrence.node

/-- How many conditionals follow a node in such a chain. -/
def followers (occurrence : Occurrence) : Nat :=
  if isInChain occurrence then chainLength occurrence.node else 0

theorem followers_eq_zero {occurrence : Occurrence}
    (noIf : occurrence.node.type ≠ "if")
    (noElsif : occurrence.node.type ≠ "elsif")
    (noTernary : occurrence.node.type ≠ "conditional") :
    followers occurrence = 0 := by
  simp [followers, isInChain, noIf, noElsif, noTernary]

/-- What a link adds to such a chain: itself, and what follows it. -/
def carried (occurrence : Occurrence) : Nat :=
  if isLink occurrence && isInChain occurrence then followers occurrence + 1
  else 0

/-- A chain that goes through a node goes through its continuation. -/
theorem isInChain_of_continuation? {parent child : Occurrence}
    (placed : child.ancestors = parent.node :: parent.ancestors)
    (continued : continuation? parent.node = some child.node) :
    isInChain child = isInChain parent := by
  rcases continuation?_eq_some_iff.mp continued with ⟨found, continues'⟩
  have stands := isAlternative_of_eq_some found
  simp only [continues, Bool.or_eq_true, Bool.and_eq_true, beq_iff_eq]
    at continues'
  rcases continues' with ⟨isIf | isElsif, next⟩ | ⟨isTernary, next⟩
  · simp [isInChain, isReachedFromIf, placed, stands, isIf, next]
  · simp [isInChain, isReachedFromIf, placed, stands, isElsif, next]
  · simp [isInChain, isTernary, next]

/-- What follows a node in such a chain is its continuation, and what follows
that. -/
theorem nextValue_eq_followers (occurrence : Occurrence) :
    nextValue (fun inner => if isInChain inner then followers inner + 1 else 0)
        occurrence = followers occurrence := by
  unfold nextValue
  cases continued : continuation? occurrence.node with
  | none => simp [followers, chainLength_eq_zero continued]
  | some next =>
      have shared :
          isInChain ⟨next, occurrence.node :: occurrence.ancestors⟩ =
            isInChain occurrence :=
        isInChain_of_continuation? rfl continued
      simp only [followers, shared, chainLength_of_continuation? continued]
      cases isInChain occurrence <;> rfl

/-- What links carry below a place follows the nodes there and its own node. -/
theorem sum_carried_below {occurrence : Occurrence}
    (wellFormed : occurrence.node.WellFormed) :
    (occurrence.below.map carried).sum =
      (occurrence.below.map followers).sum + followers occurrence := by
  have carries : carried = fun inner => if isLink inner then
      (if isInChain inner then followers inner + 1 else 0) else 0 := by
    funext inner
    cases links : isLink inner <;> simp [carried, links]
  have follows := funext nextValue_eq_followers
  rw [carries, sum_links_below _ wellFormed, follows]

end SpecAudit.Method

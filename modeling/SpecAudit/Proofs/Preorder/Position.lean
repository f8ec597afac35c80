import Mathlib.Data.List.Lex
import SpecAudit.Proofs.Preorder.Walk

/-!
# The order of a document

A tree has its position among others: which of them it is, or in which of them it
stands and at which position there.  Equal trees may stand at several positions, so
it is the positions that are counted.  In the lexicographic order a position comes
before those inside it, and all of them come before the next position beside it.
The recursion lists the trees at all positions, once each and in this order.
-/

namespace SpecAudit.Branching

variable {α : Type} (kind : Branching α)

/-- The tree at a position below a tree, which itself is at the empty one. -/
def below? (tree : α) : List Nat → Option α
  | [] => some tree
  | index :: rest => (kind.parts tree)[index]?.bind fun part => below? part rest

/-- The tree at a position among some trees and inside them. -/
def at? (trees : List α) : List Nat → Option α
  | [] => none
  | index :: rest => trees[index]?.bind fun tree => kind.below? tree rest

/-- Whether the trees that are met are those at all positions, once each and in the
order of the positions. -/
def MeetsInOrder (trees met : List α) : Prop :=
  ∃ positions : List (List Nat), positions.Pairwise (· < ·) ∧
    (∀ position, position ∈ positions ↔ (kind.at? trees position).isSome) ∧
    positions.map (kind.at? trees) = met.map some

/-- The position with the same place behind one more tree. -/
def later (position : List Nat) : List Nat :=
  position.modifyHead (· + 1)

section Positions

variable {kind} {first : α} {rest inner outer : List α} {position : List Nat}

theorem exists_cons_of_isSome (stands : (kind.at? rest position).isSome) :
    ∃ index inside, position = index :: inside := by
  cases position with
  | nil => cases stands
  | cons index inside => exact ⟨index, inside, rfl⟩

theorem at?_zero (inside : List Nat) :
    kind.at? (first :: rest) (0 :: inside) = kind.below? first inside :=
  rfl

theorem at?_succ (index : Nat) (inside : List Nat) :
    kind.at? (first :: rest) ((index + 1) :: inside) =
      kind.at? rest (index :: inside) :=
  rfl

theorem at?_inside (stands : (kind.at? (kind.parts first) position).isSome) :
    kind.at? (first :: rest) (0 :: position) =
      kind.at? (kind.parts first) position := by
  rcases exists_cons_of_isSome stands with ⟨index, inside, rfl⟩
  rfl

theorem at?_later (stands : (kind.at? rest position).isSome) :
    kind.at? (first :: rest) (later position) = kind.at? rest position := by
  rcases exists_cons_of_isSome stands with ⟨index, inside, rfl⟩
  rfl

/-- One more tree in front keeps the order of the positions. -/
theorem later_lt_later {left right : List Nat} (before : left < right)
    (present : left ≠ []) : later left < later right := by
  cases left with
  | nil => exact absurd rfl present
  | cons index inside =>
      cases right with
      | nil => exact absurd before (List.not_lt_nil _)
      | cons index' inside' =>
          rcases List.cons_lt_cons_iff.mp before with earlier | ⟨same, deeper⟩
          · exact List.cons_lt_cons_iff.mpr (.inl (Nat.succ_lt_succ earlier))
          · exact List.cons_lt_cons_iff.mpr (.inr ⟨congrArg Nat.succ same, deeper⟩)

theorem mem_map_later_iff {positions : List (List Nat)} {index : Nat}
    {inside : List Nat} :
    index :: inside ∈ positions.map later ↔
      ∃ before, index = before + 1 ∧ before :: inside ∈ positions := by
  rw [List.mem_map]
  constructor
  · rintro ⟨position, member, same⟩
    cases position with
    | nil => cases same
    | cons before rest =>
        cases same
        exact ⟨before, rfl, member⟩
  · rintro ⟨before, rfl, member⟩
    exact ⟨before :: inside, member, rfl⟩

/-- The positions among some trees are that of the first tree, those inside it and
those among the others. -/
theorem mem_positions_iff {lower right : List (List Nat)}
    (within : ∀ position, position ∈ lower ↔
      (kind.at? (kind.parts first) position).isSome)
    (past : ∀ position, position ∈ right ↔ (kind.at? rest position).isSome)
    (position : List Nat) :
    position ∈ [0] :: (lower.map (0 :: ·) ++ right.map later) ↔
      (kind.at? (first :: rest) position).isSome := by
  have noRight : [] ∉ right := fun member => by cases (past []).mp member
  cases position with
  | nil => simp [at?, later, List.modifyHead_eq_nil_iff, noRight]
  | cons index inside =>
      rw [List.mem_cons, List.mem_append, mem_map_later_iff]
      cases index with
      | zero =>
          rw [at?_zero]
          cases inside with
          | nil => simp [below?]
          | cons second inside =>
              change _ ↔ (kind.at? (kind.parts first) (second :: inside)).isSome
              rw [← within]
              simp
      | succ index =>
          rw [at?_succ, ← past]
          simp

/-- The positions inside the first tree come behind its own and before those among
the others. -/
theorem pairwise_positions {lower right : List (List Nat)}
    (ordered : lower.Pairwise (· < ·)) (ordered' : right.Pairwise (· < ·))
    (within : [] ∉ lower) (past : [] ∉ right) :
    ([0] :: (lower.map (0 :: ·) ++ right.map later)).Pairwise (· < ·) := by
  have front : ∀ {inside position : List Nat},
      position ∈ right.map later → 0 :: inside < position := by
    intro inside position member
    rcases List.mem_map.mp member with ⟨other, listed, rfl⟩
    cases other with
    | nil => exact absurd listed past
    | cons index others => exact List.cons_lt_cons_iff.mpr (.inl (Nat.succ_pos _))
  refine List.pairwise_cons.mpr ⟨?_, List.pairwise_append.mpr ⟨?_, ?_, ?_⟩⟩
  · intro position member
    rcases List.mem_append.mp member with member | member
    · rcases List.mem_map.mp member with ⟨inside, listed, rfl⟩
      cases inside with
      | nil => exact absurd listed within
      | cons index inside =>
          exact List.cons_lt_cons_iff.mpr (.inr ⟨rfl, List.nil_lt_cons _ _⟩)
    · exact front member
  · exact List.pairwise_map.mpr (ordered.imp fun before =>
      List.cons_lt_cons_iff.mpr (.inr ⟨rfl, before⟩))
  · exact List.pairwise_map.mpr (ordered'.imp_of_mem fun member _ before =>
      later_lt_later before fun empty => past (empty ▸ member))
  · intro position member position' member'
    rcases List.mem_map.mp member with ⟨inside, -, rfl⟩
    exact front member'

/-- A tree is met before what is inside it, and that before the trees beside it. -/
theorem MeetsInOrder.cons (inside : kind.MeetsInOrder (kind.parts first) inner)
    (beside : kind.MeetsInOrder rest outer) :
    kind.MeetsInOrder (first :: rest) (first :: (inner ++ outer)) := by
  rcases inside with ⟨lower, ordered, stands, met⟩
  rcases beside with ⟨right, ordered', stands', met'⟩
  have within {position : List Nat} (member : position ∈ lower) :=
    (stands position).mp member
  have past {position : List Nat} (member : position ∈ right) :=
    (stands' position).mp member
  refine ⟨[0] :: (lower.map (0 :: ·) ++ right.map later),
    pairwise_positions ordered ordered' ?_ ?_, mem_positions_iff stands stands', ?_⟩
  · intro member
    cases within member
  · intro member
    cases past member
  · have insideMet : (lower.map (0 :: ·)).map (kind.at? (first :: rest)) =
        inner.map some := by
      rw [← met, List.map_map]
      exact List.map_congr_left fun position member => at?_inside (within member)
    have besideMet : (right.map later).map (kind.at? (first :: rest)) =
        outer.map some := by
      rw [← met', List.map_map]
      exact List.map_congr_left fun position member => at?_later (past member)
    rw [List.map_cons, List.map_append, insideMet, besideMet, List.map_cons,
      List.map_append]
    rfl

end Positions

/-- The recursion meets the trees at all positions in order. -/
theorem meetsInOrder_flatMap (trees : List α) :
    kind.MeetsInOrder trees (trees.flatMap kind.listing) := by
  -- The recursion need not follow the shape of a type; what it lists gets shorter.
  induction size : (trees.flatMap kind.listing).length using Nat.strong_induction_on
    generalizing trees with
  | _ size' induction =>
      cases trees with
      | nil =>
          refine ⟨[], .nil, fun position => ?_, rfl⟩
          cases position <;> simp [at?]
      | cons first rest =>
          rw [List.flatMap_cons, kind.listing_eq, List.cons_append] at size ⊢
          rw [List.length_cons, List.length_append] at size
          exact .cons (induction _ (by omega) _ rfl) (induction _ (by omega) _ rfl)

end SpecAudit.Branching

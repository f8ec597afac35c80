import SpecAudit.Proofs.Spec.MethodGroups

/-!
# Places in a forest

A place is where blocks can stand in a forest: between two siblings, at the
top or inside other blocks.  Outside every group that describes a method, the
groups that describe it are found place by place: what stands elsewhere is
found before and after what stands at the place, whatever that is.
-/

namespace SpecAudit.Spec

open SpecAudit.Method (MethodKind)

/-- A place between two siblings, at the top or inside another block. -/
inductive Place where
  | top (before after : List Block)
  | inside (before : List Block) (heading : Heading) (inner : Place)
      (after : List Block)

namespace Place

/-- The forest with the given blocks at the place. -/
def fill (blocks : List Block) : Place → Forest
  | top before after => before ++ (blocks ++ after)
  | inside before heading inner after =>
      before ++ (.block heading (inner.fill blocks) :: after)

/-- The headings of the blocks around the place, the outermost first. -/
def headings : Place → List Heading
  | top _ _ => []
  | inside _ heading inner _ => heading :: inner.headings

/-- No group around the place describes the method. -/
def IsOutside (kind : Option MethodKind) (name : String) (place : Place) :
    Prop :=
  ∀ heading ∈ place.headings, heading.describes kind name = false

end Place

theorem Place.isOutside_top {kind : Option MethodKind} {name : String}
    (before after : List Block) :
    (Place.top before after).IsOutside kind name := by
  intro heading member
  cases member

namespace Place

variable {kind : Option MethodKind} {name : String}

/--
The groups found in the forest are those found at the place, between others
that do not depend on it.
-/
theorem methodGroups_fill {place : Place}
    (outside : place.IsOutside kind name) :
    ∃ before after, ∀ blocks,
      (place.fill blocks).methodGroups kind name =
        before ++ (Block.methodGroupsOf kind name blocks ++ after) := by
  induction place with
  | top left right =>
      refine
        ⟨Block.methodGroupsOf kind name left,
          Block.methodGroupsOf kind name right, ?_⟩
      intro blocks
      simp only [fill, Forest.methodGroups, Block.methodGroupsOf_append]
  | inside left heading inner right induction =>
      have passed : heading.describes kind name = false :=
        outside heading List.mem_cons_self
      have innerOutside : inner.IsOutside kind name :=
        fun other member => outside other (List.mem_cons_of_mem _ member)
      rcases induction innerOutside with ⟨before, after, found⟩
      refine
        ⟨Block.methodGroupsOf kind name left ++ before,
          after ++ Block.methodGroupsOf kind name right, ?_⟩
      intro blocks
      have within : Block.methodGroupsOf kind name (inner.fill blocks) =
          before ++ (Block.methodGroupsOf kind name blocks ++ after) :=
        found blocks
      simp only [fill, Forest.methodGroups, Block.methodGroupsOf_append,
        Block.methodGroupsOf, Block.methodGroups_of_not_describes passed,
        within, List.append_assoc]

/-- The place lies before and after more siblings. -/
def beside (left right : List Block) : Place → Place
  | top before after => top (left ++ before) (after ++ right)
  | inside before heading inner after =>
      inside (left ++ before) heading inner (after ++ right)

theorem fill_beside (left right blocks : List Block) (place : Place) :
    (place.beside left right).fill blocks =
      left ++ (place.fill blocks ++ right) := by
  cases place <;> simp [beside, fill]

theorem isOutside_beside {left right : List Block} {place : Place}
    (outside : place.IsOutside kind name) :
    (place.beside left right).IsOutside kind name := by
  cases place <;> exact outside

end Place

open Place in
mutual

/-- Every group that is found stands somewhere outside every other. -/
theorem Block.exists_place_of_mem_methodGroups {kind : Option MethodKind}
    {name : String} {group : Block} :
    ∀ {block : Block}, group ∈ block.methodGroups kind name →
      group.describes kind name = true ∧
        ∃ place : Place, place.IsOutside kind name ∧
          [block] = place.fill [group]
  | .block heading children, found => by
      by_cases describes :
          (Block.block heading children).describes kind name = true
      · rw [methodGroups_of_describes describes, List.mem_singleton] at found
        subst found
        exact ⟨describes, .top [] [], isOutside_top [] [], rfl⟩
      · have passed : heading.describes kind name = false := by
          simpa using describes
        rw [methodGroups_of_not_describes passed] at found
        rcases Block.exists_place_of_mem_methodGroupsOf found with
          ⟨describes, place, outside, filled⟩
        refine ⟨describes, .inside [] heading place [], ?_, ?_⟩
        · intro other member
          rcases List.mem_cons.mp member with rfl | deeper
          · exact passed
          · exact outside other deeper
        · rw [fill, filled]
          rfl

theorem Block.exists_place_of_mem_methodGroupsOf {kind : Option MethodKind}
    {name : String} {group : Block} :
    ∀ {blocks : List Block}, group ∈ methodGroupsOf kind name blocks →
      group.describes kind name = true ∧
        ∃ place : Place, place.IsOutside kind name ∧
          blocks = place.fill [group]
  | first :: rest, found => by
      rw [methodGroupsOf, List.mem_append] at found
      rcases found with here | later
      · rcases Block.exists_place_of_mem_methodGroups here with
          ⟨describes, place, outside, filled⟩
        refine ⟨describes, place.beside [] rest, isOutside_beside outside, ?_⟩
        rw [fill_beside, ← filled]
        rfl
      · rcases Block.exists_place_of_mem_methodGroupsOf later with
          ⟨describes, place, outside, filled⟩
        refine
          ⟨describes, place.beside [first] [], isOutside_beside outside, ?_⟩
        rw [fill_beside, ← filled, List.append_nil]
        rfl

end

end SpecAudit.Spec

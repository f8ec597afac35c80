import SpecAudit.Proofs.Spec.ContextCount

/-!
# The outermost groups that describe a method

Each block of a forest is met with the blocks that it stands in.  The groups that
are found for a method are those that describe it and stand in no group that does,
in the order of the document.  The search with a stack, which looks at the blocks
inside a group only where the group itself does not describe the method, finds the
same ones.  So the contexts of a method can be read off these groups.
-/

namespace SpecAudit.Spec

open SpecAudit.Method (MethodKind)

/-- A block together with the blocks that it stands in, the nearest first. -/
structure Standing where
  block : Block
  around : List Block

namespace Block

mutual

/-- A block that stands in the given ones, and every block inside it. -/
def standings (around : List Block) : Block → List Standing
  | block heading children =>
      ⟨block heading children, around⟩ ::
        standingsOf (block heading children :: around) children

/-- Every block of a list and inside it, where the list stands in the given
blocks. -/
def standingsOf (around : List Block) : List Block → List Standing
  | [] => []
  | first :: rest => standings around first ++ standingsOf around rest

end

mutual

theorem map_block_standings (around : List Block) :
    ∀ block : Block, (block.standings around).map Standing.block = block.all
  | .block heading children => by
      rw [standings, List.map_cons, map_block_standingsOf, all]

theorem map_block_standingsOf (around : List Block) :
    ∀ blocks : List Block,
      (standingsOf around blocks).map Standing.block = allOf blocks
  | [] => rfl
  | first :: rest => by
      rw [standingsOf, List.map_append, map_block_standings,
        map_block_standingsOf, allOf]

end

mutual

theorem suffix_of_mem_standings {around : List Block} {standing : Standing} :
    ∀ {block : Block}, standing ∈ block.standings around →
      around <:+ standing.around
  | .block heading children, member => by
      rw [standings, List.mem_cons] at member
      rcases member with rfl | inside
      · exact List.suffix_refl around
      · exact (List.suffix_cons _ around).trans
          (suffix_of_mem_standingsOf inside)

theorem suffix_of_mem_standingsOf {around : List Block} {standing : Standing} :
    ∀ {blocks : List Block}, standing ∈ standingsOf around blocks →
      around <:+ standing.around
  | first :: rest, member => by
      rw [standingsOf, List.mem_append] at member
      rcases member with here | later
      · exact suffix_of_mem_standings here
      · exact suffix_of_mem_standingsOf later

end

end Block

/-- Every block of a forest with the blocks that it stands in, in document
order. -/
def Forest.standings (forest : Forest) : List Standing :=
  Block.standingsOf [] forest

variable {kind : Option MethodKind} {name : String}

/-- Whether a block describes a method and no block around it does. -/
def Standing.isOutermost (kind : Option MethodKind) (name : String)
    (standing : Standing) : Bool :=
  standing.block.describes kind name &&
    standing.around.all fun outer => !outer.describes kind name

/-- The groups of a forest that describe a method and stand in no group that
does, in document order. -/
def Forest.outermostGroups (forest : Forest) (kind : Option MethodKind)
    (name : String) : List Block :=
  (forest.standings.filter (·.isOutermost kind name)).map Standing.block

/-! ## Groups that are found -/

/-- Nothing inside a group that describes the method is outermost. -/
theorem filter_standingsOf_of_describes {around blocks : List Block}
    {outer : Block} (member : outer ∈ around)
    (describes : outer.describes kind name = true) :
    (Block.standingsOf around blocks).filter (·.isOutermost kind name) = [] := by
  rw [List.filter_eq_nil_iff]
  intro standing stands
  have around := (Block.suffix_of_mem_standingsOf stands).subset member
  simp only [Standing.isOutermost, Bool.and_eq_true, List.all_eq_true,
    Bool.not_eq_true', not_and, not_forall]
  intro _
  exact ⟨outer, around, by simp [describes]⟩

mutual

/-- Where no block around describes the method, the groups that are found in a
block are the outermost ones. -/
theorem Block.methodGroups_eq_map_standings {around : List Block}
    (outside : around.all (fun outer => !outer.describes kind name) = true) :
    ∀ block : Block, block.methodGroups kind name =
      ((block.standings around).filter (·.isOutermost kind name)).map
        Standing.block
  | .block heading children => by
      by_cases describes :
          (Block.block heading children).describes kind name = true
      · have outermost : Standing.isOutermost kind name
            ⟨.block heading children, around⟩ = true := by
          simp only [Standing.isOutermost, describes, outside, Bool.and_self]
        rw [methodGroups_of_describes describes, standings,
          List.filter_cons_of_pos outermost,
          filter_standingsOf_of_describes List.mem_cons_self describes]
        rfl
      · have passed : heading.describes kind name = false := by
          simpa using describes
        have inner : (Block.block heading children :: around).all
            (fun outer => !outer.describes kind name) = true := by
          rw [List.all_cons, outside, describes_block, passed]
          rfl
        have other : ¬ Standing.isOutermost kind name
            ⟨.block heading children, around⟩ = true := by
          simp [Standing.isOutermost, passed]
        rw [methodGroups_of_not_describes passed, standings,
          List.filter_cons_of_neg other,
          methodGroupsOf_eq_map_standingsOf inner]

theorem Block.methodGroupsOf_eq_map_standingsOf {around : List Block}
    (outside : around.all (fun outer => !outer.describes kind name) = true) :
    ∀ blocks : List Block, methodGroupsOf kind name blocks =
      ((standingsOf around blocks).filter (·.isOutermost kind name)).map
        Standing.block
  | [] => rfl
  | first :: rest => by
      rw [methodGroupsOf, standingsOf, List.filter_append, List.map_append,
        Block.methodGroups_eq_map_standings outside,
        Block.methodGroupsOf_eq_map_standingsOf outside]

end

theorem Forest.methodGroups_eq_outermostGroups (forest : Forest)
    (kind : Option MethodKind) (name : String) :
    forest.methodGroups kind name = forest.outermostGroups kind name :=
  Block.methodGroupsOf_eq_map_standingsOf rfl forest

/-! ## The search with a stack -/

namespace Block

/--
The search for groups that describe a method: it takes blocks from a stack, adds
a group that describes the method to those found, and puts what is inside any
other block on the stack.
-/
def searchGroups (kind : Option MethodKind) (name : String)
    (found : List Block) : List Block → List Block
  | [] => found
  | first :: stack =>
      if first.describes kind name then
        searchGroups kind name (found ++ [first]) stack
      else searchGroups kind name found (first.children ++ stack)
  termination_by stack => (allOf stack).length
  decreasing_by
    · rcases first with ⟨heading, children⟩
      simp only [allOf, all, List.length_append, List.length_cons]
      omega
    · rcases first with ⟨heading, children⟩
      have both := Forest.allBlocks_append children stack
      simp only [Forest.allBlocks] at both
      simp only [Block.children, both, allOf, all, List.length_append,
        List.length_cons]
      omega

/-- What is found and what the stack still holds stay the same at each step. -/
theorem searchGroups_eq (found stack : List Block) :
    searchGroups kind name found stack =
      found ++ methodGroupsOf kind name stack := by
  fun_induction searchGroups kind name found stack with
  | case1 found => rw [methodGroupsOf, List.append_nil]
  | case2 found first stack describes induction =>
      rw [induction, methodGroupsOf, methodGroups_of_describes describes,
        List.append_assoc]
  | case3 found first stack passed induction =>
      rcases first with ⟨heading, children⟩
      rw [describes_block, Bool.not_eq_true] at passed
      rw [induction, methodGroupsOf, methodGroups_of_not_describes passed,
        Block.children, methodGroupsOf_append]

end Block

/-! ## Contexts -/

theorem Forest.hasVerbScenario_iff {forest : Forest} {name : String} :
    forest.hasVerbScenario name = true ↔
      ∃ block ∈ forest.allBlocks,
        block.isGroup = false ∧ (verbSpan? name block.title).isSome = true := by
  simp [hasVerbScenario]

/--
The groups that are found for a method are the outermost ones that describe it,
in document order; the search with a stack finds the same.  There is one exactly
if some group at any depth describes the method, and in two forests side by side
those of each are found.  The contexts of the method are the groups directly
inside them; or the single one that scenarios directly inside them make alone; or,
without such groups, the single one that a scenario makes which tests the method.
-/
theorem Forest.methodGroups_outermost (forest : Forest)
    (kind : Option MethodKind) (name : String) :
    forest.methodGroups kind name = forest.outermostGroups kind name ∧
      Block.searchGroups kind name [] forest =
        forest.outermostGroups kind name ∧
      forest.standings.map Standing.block = forest.allBlocks ∧
      (forest.outermostGroups kind name ≠ [] ↔
        ∃ block ∈ forest.allBlocks, block.describes kind name = true) ∧
      (∀ more : Forest,
        Forest.methodGroups (forest ++ more) kind name =
          forest.methodGroups kind name ++ more.methodGroups kind name) ∧
      forest.countContexts name =
        if forest.outermostGroups none name = [] then
          if ∃ block ∈ forest.allBlocks, block.isGroup = false ∧
              (verbSpan? name block.title).isSome = true then 1 else 0
        else if heldGroups (forest.outermostGroups none name) = 0 ∧
            holdsScenario (forest.outermostGroups none name) = true then 1
        else heldGroups (forest.outermostGroups none name) := by
  have found := forest.methodGroups_eq_outermostGroups
  refine ⟨found kind name, ?_, Block.map_block_standingsOf [] forest, ?_,
    fun more => Block.methodGroupsOf_append forest more, ?_⟩
  · rw [Block.searchGroups_eq, List.nil_append]
    exact found kind name
  · rw [← found kind name, Ne, methodGroups_eq_nil_iff]
    simp
  · simp only [← hasVerbScenario_iff]
    rw [← found none name]
    by_cases undescribed : forest.methodGroups none name = []
    · rw [if_pos undescribed]
      exact countContexts_of_eq_nil undescribed
    · rw [if_neg undescribed]
      exact countContexts_of_ne_nil undescribed

end SpecAudit.Spec

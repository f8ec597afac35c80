import SpecAudit.Proofs.Syntax.Enclosure
import SpecAudit.Spec.CallForest

/-!
# The calls that a syntax tree lists

The forest of a syntax tree has a block for every call that declares one and
lies, for each such call around it, in the block that this call is given as a
group.  The main statement is `treeForest?_eq_some_blocksOf`: these calls are
listed once each, in the order of the tree, and each below the nearest such call
around it.
-/

namespace SpecAudit.Spec

open SpecAudit.Syntax SpecAudit.Text

/-- A call that declares a block, with those that declare the blocks inside. -/
inductive CallTree where
  | tree (kind : BlockKind) (call : Node) (children : List CallTree)

namespace CallTree

/-- The kind of block that is declared. -/
def kind : CallTree → BlockKind
  | tree kind _ _ => kind

def call : CallTree → Node
  | tree _ call _ => call

def children : CallTree → List CallTree
  | tree _ _ children => children

mutual

/-- The block that a call declares, given the lines of the document. -/
def block (lines : List (List Char)) : CallTree → Block
  | tree kind call children =>
      .block (callHeading lines kind call) (blocksOf lines children)

/-- The blocks that the calls of a list declare. -/
def blocksOf (lines : List (List Char)) : List CallTree → List Block
  | [] => []
  | first :: rest => block lines first :: blocksOf lines rest

end

mutual

/-- A tree of calls and every tree inside it, in order. -/
def all : CallTree → List CallTree
  | tree kind call children => tree kind call children :: allOf children

/-- Every tree of a list and inside it, in order. -/
def allOf : List CallTree → List CallTree
  | [] => []
  | first :: rest => all first ++ allOf rest

end

/-- The calls of a list of trees, in order. -/
def calls (trees : List CallTree) : List Node :=
  (allOf trees).map call

variable {lines : List (List Char)} {left right trees : List CallTree}

theorem blocksOf_append :
    blocksOf lines (left ++ right) =
      blocksOf lines left ++ blocksOf lines right := by
  induction left with
  | nil => rfl
  | cons first rest induction => simp [blocksOf, induction]

theorem allOf_append : allOf (left ++ right) = allOf left ++ allOf right := by
  induction left with
  | nil => rfl
  | cons first rest induction => simp [allOf, induction]

@[simp]
theorem calls_append : calls (left ++ right) = calls left ++ calls right := by
  rw [calls, allOf_append, List.map_append, calls, calls]

@[simp]
theorem calls_singleton (kind : BlockKind) (call : Node) :
    calls [tree kind call trees] = call :: calls trees := by
  simp [calls, allOf, all, CallTree.call]

theorem call_mem_calls {tree : CallTree} (member : tree ∈ trees) :
    tree.call ∈ calls trees := by
  induction trees with
  | nil => cases member
  | cons first rest induction =>
      rw [← List.singleton_append, calls_append, List.mem_append]
      rcases List.mem_cons.mp member with rfl | member
      · rcases tree with ⟨kind, call, children⟩
        rw [calls_singleton]
        exact .inl List.mem_cons_self
      · exact .inr (induction member)

mutual

theorem all_block : ∀ tree : CallTree,
    (tree.block lines).all = tree.all.map (block lines)
  | tree kind call children => by
      rw [block, Block.all, all, List.map_cons, allOf_blocksOf, block]

theorem allOf_blocksOf : ∀ trees : List CallTree,
    Block.allOf (blocksOf lines trees) = (allOf trees).map (block lines)
  | [] => rfl
  | first :: rest => by
      rw [blocksOf, Block.allOf, all_block, allOf_blocksOf, allOf,
        List.map_append]

end

end CallTree

/-! ## The blocks of a node -/

section Blocks

variable (lines : List (List Char)) (node : Node)

theorem innerBlocks_eq_flatMap :
    innerBlocks lines node =
      node.namedChildren.flatMap (callBlocks lines) := by
  rcases node with ⟨label, children⟩
  rw [innerBlocks, Node.namedChildren, Node.children_node]
  induction children with
  | nil => rfl
  | cons first rest induction =>
      rw [callBlocksOf, induction, List.filter_cons]
      split <;> simp

/-- The blocks inside the block that a call is given, if it is given one. -/
def givenBlocks : List Block :=
  match node.child? "block" with
  | some body => innerBlocks lines body
  | none => []

theorem callBlocks_eq :
    callBlocks lines node =
      match callKind? node with
      | none => innerBlocks lines node
      | some .group =>
          [.block (callHeading lines .group node) (givenBlocks lines node)]
      | some .scenario =>
          [.block (callHeading lines .scenario node) []] := by
  rcases node with ⟨label, children⟩
  have body : bodyBlocks lines children =
      givenBlocks lines (.node label children) := by
    rw [givenBlocks, Node.child?, Node.children_node]
    induction children with
    | nil => rfl
    | cons first rest induction =>
        rw [bodyBlocks, List.find?_cons]
        cases fills : first.label.field? == some "block" with
        | true => rfl
        | false => exact induction
  rewrite [callBlocks, body, innerBlocks]
  rfl

end Blocks

/-! ## Calls that are listed -/

/--
Whether a call around a node lets the node be listed: if the call declares a
block, then a group, and the node lies in the block that the call is given.
-/
def IsOpenTo (outer node : Node) : Prop :=
  ∀ kind ∈ callKind? outer,
    kind = .group ∧ ∃ body ∈ outer.child? "block", node ∈ body.descendants

/-- Whether every node around a node lets it be listed. -/
def IsExposed (root node : Node) : Prop :=
  ∀ outer ∈ root :: root.descendants, node ∈ outer.descendants →
    IsOpenTo outer node

/-- Whether a node declares a block and is listed. -/
def IsListed (root node : Node) : Prop :=
  (callKind? node).isSome ∧ IsExposed root node

instance (outer node : Node) : Decidable (IsOpenTo outer node) :=
  inferInstanceAs (Decidable (∀ kind ∈ callKind? outer, _ ∧ _))

instance (root node : Node) : Decidable (IsExposed root node) :=
  inferInstanceAs (Decidable (∀ outer ∈ root :: root.descendants, _ → _))

instance (root node : Node) : Decidable (IsListed root node) :=
  inferInstanceAs (Decidable (_ ∧ _))

/-- Whether a node is the nearest one around another that declares a block. -/
def IsNearest (root call node : Node) : Prop :=
  root.Encloses call node ∧ (callKind? call).isSome ∧
    ∀ outer, root.Encloses outer node → (callKind? outer).isSome →
      outer = call ∨ root.Encloses outer call

/--
Whether a tree of calls is what its call declares: a scenario holds nothing, and
the call is the nearest around those directly inside.
-/
def IsNested (root : Node) (tree : CallTree) : Prop :=
  callKind? tree.call = some tree.kind ∧
    (tree.kind = .scenario → tree.children = []) ∧
    ∀ child ∈ tree.children, IsNearest root tree.call child.call

section Steps

variable {node child body inner outer : Node} {kind : BlockKind}
variable {trees left right : List CallTree}

theorem isOpenTo_of_none (declaresNone : callKind? outer = none) :
    IsOpenTo outer inner := by
  intro kind found
  rw [declaresNone] at found
  cases found

theorem isExposed_child_iff (distinct : node.Distinct)
    (member : child ∈ node.namedChildren) :
    IsExposed node child ↔ IsOpenTo node child := by
  constructor
  · intro exposed
    exact exposed node List.mem_cons_self
      (Node.mem_descendants_of_mem_namedChildren member)
  · intro opens outer lies below
    rw [(distinct.encloses_child_iff member).mp ⟨lies, below⟩]
    exact opens

theorem isExposed_iff (distinct : node.Distinct)
    (member : child ∈ node.namedChildren)
    (inside : inner ∈ child.descendants) :
    IsExposed node inner ↔ IsOpenTo node inner ∧ IsExposed child inner := by
  constructor
  · intro exposed
    refine ⟨exposed node List.mem_cons_self
      (Node.mem_descendants_of_mem_child member inside), ?_⟩
    intro outer lies below
    have encloses : child.Encloses outer inner := ⟨lies, below⟩
    exact exposed outer (encloses.of_mem_namedChildren member).1 below
  · rintro ⟨opens, exposed⟩ outer lies below
    rcases (distinct.encloses_iff member inside).mp ⟨lies, below⟩ with
      rfl | encloses
    · exact opens
    · exact exposed outer encloses.1 below

theorem IsNearest.of_mem_namedChildren {call : Node}
    (distinct : node.Distinct) (member : child ∈ node.namedChildren)
    (nearest : IsNearest child call inner) : IsNearest node call inner := by
  rcases nearest with ⟨encloses, declares, others⟩
  have widened := encloses.of_mem_namedChildren member
  refine ⟨widened, declares, ?_⟩
  intro outer around declares'
  rcases (distinct.encloses_iff member encloses.mem_descendants).mp around with
    rfl | around
  · right
    rcases List.mem_cons.mp encloses.1 with rfl | lies
    · exact ⟨List.mem_cons_self,
        Node.mem_descendants_of_mem_namedChildren member⟩
    · exact ⟨List.mem_cons_self, Node.mem_descendants_of_mem_child member lies⟩
  · rcases others outer around declares' with same | around
    · exact .inl same
    · exact .inr (around.of_mem_namedChildren member)

theorem IsNested.of_mem_namedChildren {tree : CallTree}
    (distinct : node.Distinct) (member : child ∈ node.namedChildren)
    (nested : IsNested child tree) : IsNested node tree :=
  ⟨nested.1, nested.2.1, fun inner held =>
    (nested.2.2 inner held).of_mem_namedChildren distinct member⟩

/--
Trees of calls list a region of a tree: its calls that are listed, in order,
each in its place.
-/
structure Lists (root : Node) (region : List Node) (trees : List CallTree) :
    Prop where
  ordered : (CallTree.calls trees).Sublist region
  listed : ∀ node ∈ region,
    node ∈ CallTree.calls trees ↔ IsListed root node
  outermost : ∀ tree ∈ trees, ∀ outer,
    root.Encloses outer tree.call → callKind? outer = none
  nested : ∀ tree ∈ CallTree.allOf trees, IsNested root tree

namespace Lists

theorem nil (root : Node) : Lists root [] [] where
  ordered := List.Sublist.slnil
  listed := by simp
  outermost := by simp
  nested := by simp [CallTree.allOf]

/-- Two regions side by side are listed by the trees of the one and the other. -/
theorem append {root : Node} {region region' : List Node}
    (lists : Lists root region left) (lists' : Lists root region' right) :
    Lists root (region ++ region') (left ++ right) where
  ordered := by
    rw [CallTree.calls_append]
    exact lists.ordered.append lists'.ordered
  listed := by
    intro node member
    rw [CallTree.calls_append, List.mem_append]
    rcases List.mem_append.mp member with member | member
    · rw [lists.listed node member, or_iff_left_iff_imp]
      intro found
      exact (lists'.listed node (lists'.ordered.subset found)).mp found
    · rw [lists'.listed node member, or_iff_right_iff_imp]
      intro found
      exact (lists.listed node (lists.ordered.subset found)).mp found
  outermost := by
    intro tree member
    rcases List.mem_append.mp member with member | member
    · exact lists.outermost tree member
    · exact lists'.outermost tree member
  nested := by
    intro tree member
    rw [CallTree.allOf_append] at member
    rcases List.mem_append.mp member with member | member
    · exact lists.nested tree member
    · exact lists'.nested tree member

theorem call_mem {root : Node} {region : List Node} {tree : CallTree}
    (lists : Lists root region trees) (member : tree ∈ trees) :
    tree.call ∈ region :=
  lists.ordered.subset (CallTree.call_mem_calls member)

/-- A child that declares nothing is listed by what is listed below it. -/
theorem child_of_none (distinct : node.Distinct)
    (member : child ∈ node.namedChildren)
    (noBlock : callKind? node = none) (declaresNone : callKind? child = none)
    (lists : Lists child child.descendants trees) :
    Lists node (child :: child.descendants) trees where
  ordered := lists.ordered.cons child
  listed := by
    intro inner lies
    rcases List.mem_cons.mp lies with rfl | inside
    · have absent : inner ∉ CallTree.calls trees := fun found =>
        (distinct.of_mem_namedChildren member).not_mem_descendants
          (lists.ordered.subset found)
      simp [absent, IsListed, declaresNone]
    · rw [lists.listed inner inside, IsListed, IsListed,
        isExposed_iff distinct member inside]
      simp [isOpenTo_of_none noBlock]
  outermost := by
    intro tree held outer around
    rcases (distinct.encloses_iff member (lists.call_mem held)).mp around with
      rfl | around
    · exact noBlock
    · exact lists.outermost tree held outer around
  nested := fun tree held =>
    (lists.nested tree held).of_mem_namedChildren distinct member

/-- A child that declares a block without others inside is listed alone. -/
theorem child_of_closed (distinct : node.Distinct)
    (member : child ∈ node.namedChildren)
    (noBlock : callKind? node = none) (declares : callKind? child = some kind)
    (closed : ∀ inner ∈ child.descendants, ¬ IsOpenTo child inner) :
    Lists node (child :: child.descendants) [.tree kind child []] where
  ordered := by
    rw [CallTree.calls_singleton]
    exact (List.nil_sublist _).cons_cons child
  listed := by
    intro inner lies
    have nothing : CallTree.calls [] = [] := rfl
    rw [CallTree.calls_singleton, nothing, List.mem_singleton]
    rcases List.mem_cons.mp lies with rfl | inside
    · simp [IsListed, declares, isExposed_child_iff distinct member,
        isOpenTo_of_none noBlock]
    · have other : inner ≠ child := fun same =>
        (distinct.of_mem_namedChildren member).not_mem_descendants
          (same ▸ inside)
      have hidden : ¬ IsExposed child inner := fun exposed =>
        closed inner inside (exposed child List.mem_cons_self inside)
      simp [other, IsListed, isExposed_iff distinct member inside, hidden]
  outermost := by
    intro tree held outer around
    rw [List.mem_singleton.mp held] at around
    rw [(distinct.encloses_child_iff member).mp around]
    exact noBlock
  nested := by
    intro tree held
    simp only [CallTree.allOf, CallTree.all, List.append_nil,
      List.mem_singleton] at held
    rw [held]
    exact ⟨declares, fun _ => rfl, by simp [CallTree.children]⟩

/-- The child is the only one that declares a block around what it holds. -/
theorem isNearest_child (distinct : node.Distinct)
    (member : child ∈ node.namedChildren)
    (noBlock : callKind? node = none) (declares : callKind? child = some kind)
    (isNamed : body ∈ child.namedChildren)
    (lists : Lists body body.descendants trees) {tree : CallTree}
    (held : tree ∈ trees) :
    IsNearest node child tree.call := by
  have inside := lists.call_mem held
  have inChild := Node.mem_descendants_of_mem_child isNamed inside
  refine ⟨⟨?_, inChild⟩, by simp [declares], ?_⟩
  · exact List.mem_cons_of_mem _
      (Node.mem_descendants_of_mem_namedChildren member)
  · intro outer around declares'
    rcases (distinct.encloses_iff member inChild).mp around with rfl | around
    · simp [noBlock] at declares'
    · have below := distinct.of_mem_namedChildren member
      rcases (below.encloses_iff isNamed inside).mp around with rfl | around
      · exact .inl rfl
      · simp [lists.outermost tree held outer around] at declares'

/-- A group is listed with what is listed below the block that it is given. -/
theorem child_of_group (distinct : node.Distinct)
    (member : child ∈ node.namedChildren)
    (noBlock : callKind? node = none)
    (declares : callKind? child = some .group)
    (given : child.child? "block" = some body)
    (isNamed : body ∈ child.namedChildren)
    (lists : Lists body body.descendants trees) :
    Lists node (child :: child.descendants) [.tree .group child trees] := by
  have below := distinct.of_mem_namedChildren member
  have opens {inner : Node} :
      IsOpenTo child inner ↔ inner ∈ body.descendants := by
    simp [IsOpenTo, declares, given]
  refine ⟨?_, ?_, ?_, ?_⟩
  · rw [CallTree.calls_singleton]
    exact (lists.ordered.trans ((List.sublist_cons_self _ _).trans
      (Node.subtree_sublist isNamed))).cons_cons child
  · intro inner lies
    rw [CallTree.calls_singleton, List.mem_cons]
    rcases List.mem_cons.mp lies with rfl | inside
    · simp [IsListed, declares, isExposed_child_iff distinct member,
        isOpenTo_of_none noBlock]
    · have other : inner ≠ child := fun same =>
        below.not_mem_descendants (same ▸ inside)
      rw [or_iff_right other, IsListed, isExposed_iff distinct member inside,
        and_iff_right (isOpenTo_of_none noBlock)]
      constructor
      · intro found
        have inBody := lists.ordered.subset found
        rcases (lists.listed inner inBody).mp found with ⟨isCall, exposed⟩
        refine ⟨isCall, (isExposed_iff below isNamed inBody).mpr ?_⟩
        exact ⟨opens.mpr inBody, exposed⟩
      · rintro ⟨isCall, exposed⟩
        have inBody := opens.mp (exposed child List.mem_cons_self inside)
        apply (lists.listed inner inBody).mpr
        exact ⟨isCall, ((isExposed_iff below isNamed inBody).mp exposed).2⟩
  · intro tree held outer around
    rw [List.mem_singleton.mp held] at around
    rw [(distinct.encloses_child_iff member).mp around]
    exact noBlock
  · intro tree held
    simp only [CallTree.allOf, CallTree.all, List.append_nil, List.mem_cons]
      at held
    rcases held with rfl | held
    · refine ⟨declares, ?_, fun inner held =>
        isNearest_child distinct member noBlock declares isNamed lists held⟩
      intro scenario
      cases scenario
    · exact ((lists.nested tree held).of_mem_namedChildren below
        isNamed).of_mem_namedChildren distinct member

end Lists

end Steps

/-! ## Documents -/

/--
A tree in which every node has a number of its own, and in which calls are given
blocks and nothing else.
-/
structure IsParsed (root : Node) : Prop where
  distinct : root.Distinct
  blocks : ∀ node ∈ root :: root.descendants, node.isCall = true →
    ∀ body ∈ node.child? "block",
      body.label.named = true ∧
        ["block", "do_block"].contains body.type = true

theorem IsParsed.of_mem_namedChildren {node child : Node}
    (parsed : IsParsed node) (member : child ∈ node.namedChildren) :
    IsParsed child where
  distinct := parsed.distinct.of_mem_namedChildren member
  blocks := fun inner lies => parsed.blocks inner
    (List.mem_cons_of_mem _ ((Node.subtree_sublist member).subset lies))

theorem callKind?_of_not_call {node : Node} (noCall : node.isCall = false) :
    callKind? node = none := by
  simp [callKind?, noCall]

theorem isCall_of_callKind? {node : Node} {kind : BlockKind}
    (declares : callKind? node = some kind) : node.isCall = true := by
  by_contra noCall
  rw [callKind?_of_not_call (by simpa using noCall)] at declares
  cases declares

/-- The block that a call is given is a named child and declares nothing. -/
theorem IsParsed.block_of_call {node body : Node} (parsed : IsParsed node)
    (isCall : node.isCall = true) (given : node.child? "block" = some body) :
    body ∈ node.namedChildren ∧ callKind? body = none := by
  rcases parsed.blocks node List.mem_cons_self isCall body given with
    ⟨isNamed, isBlock⟩
  refine ⟨List.mem_filter.mpr
    ⟨List.mem_of_find?_eq_some given, isNamed⟩, ?_⟩
  apply callKind?_of_not_call
  simp only [List.contains_cons, List.contains_nil, Bool.or_false,
    Bool.or_eq_true, beq_iff_eq] at isBlock
  rcases isBlock with isBlock | isBlock <;> simp [Node.isCall, isBlock]

section Listing

variable (lines : List (List Char))

/-- The blocks of a list of children are listed one after the other. -/
theorem exists_lists_flatMap {node : Node} :
    ∀ {list : List Node},
      (∀ child ∈ list, ∃ trees,
        callBlocks lines child = CallTree.blocksOf lines trees ∧
          Lists node (child :: child.descendants) trees) →
      ∃ trees,
        list.flatMap (callBlocks lines) = CallTree.blocksOf lines trees ∧
          Lists node (list.flatMap fun child => child :: child.descendants)
            trees
  | [], _ => ⟨[], rfl, .nil node⟩
  | first :: rest, each => by
      rcases each first List.mem_cons_self with ⟨left, blocks, lists⟩
      rcases exists_lists_flatMap fun child member =>
        each child (List.mem_cons_of_mem _ member) with
        ⟨right, others, lists'⟩
      refine ⟨left ++ right, ?_, lists.append lists'⟩
      rw [List.flatMap_cons, blocks, others, CallTree.blocksOf_append]

/--
The blocks below a node that declares nothing are listed, and so are those of a
child of such a node.
-/
theorem exists_lists (node : Node) :
    (IsParsed node → callKind? node = none →
      ∃ trees, innerBlocks lines node = CallTree.blocksOf lines trees ∧
        Lists node node.descendants trees) ∧
    ∀ parent : Node, IsParsed parent → callKind? parent = none →
      node ∈ parent.namedChildren →
      ∃ trees, callBlocks lines node = CallTree.blocksOf lines trees ∧
        Lists parent (node :: node.descendants) trees := by
  induction node using Node.induction with
  | step node induction =>
      have inner (parsed : IsParsed node) (noBlock : callKind? node = none) :
          ∃ trees, innerBlocks lines node = CallTree.blocksOf lines trees ∧
            Lists node node.descendants trees := by
        rw [innerBlocks_eq_flatMap, Node.descendants_eq_flatMap]
        apply exists_lists_flatMap
        intro child member
        exact (induction child (List.mem_of_mem_filter member)).2 node parsed
          noBlock member
      refine ⟨inner, ?_⟩
      intro parent parsed noBlock member
      have below := parsed.of_mem_namedChildren member
      rw [callBlocks_eq]
      cases declares : callKind? node with
      | none =>
          rcases inner below declares with ⟨trees, blocks, lists⟩
          exact ⟨trees, blocks,
            lists.child_of_none parsed.distinct member noBlock declares⟩
      | some kind =>
          have isCall := isCall_of_callKind? declares
          cases kind with
          | scenario =>
              refine ⟨[.tree .scenario node []], rfl,
                .child_of_closed parsed.distinct member noBlock declares ?_⟩
              intro inner _ opens
              cases (opens .scenario declares).1
          | group =>
              cases given : node.child? "block" with
              | none =>
                  refine ⟨[.tree .group node []], ?_,
                    .child_of_closed parsed.distinct member noBlock declares
                      ?_⟩
                  · simp [givenBlocks, given, CallTree.blocksOf,
                      CallTree.block]
                  · intro inner _ opens
                    rcases (opens .group declares).2 with ⟨body, found, -⟩
                    rw [given] at found
                    cases found
              | some body =>
                  rcases below.block_of_call isCall given with
                    ⟨isNamed, noCall⟩
                  have parsedBody := below.of_mem_namedChildren isNamed
                  rcases (induction body (List.mem_of_mem_filter isNamed)).1
                    parsedBody noCall with ⟨trees, blocks, lists⟩
                  refine ⟨[.tree .group node trees], ?_,
                    .child_of_group parsed.distinct member noBlock declares
                      given isNamed lists⟩
                  simp [givenBlocks, given, blocks, CallTree.blocksOf,
                    CallTree.block]

end Listing

/--
The forest of a document without errors is that of its calls that declare blocks
and lie, for each such call around them, in the block that this call is given as
a group.  They are listed once each, in the order of the tree; the nearest such
call around one is that of the block it lies in; and scenarios hold nothing.
-/
theorem treeForest?_eq_some_blocksOf {root : Node} (parsed : IsParsed root)
    (program : root.type = "program") (text : String) :
    ∃ trees : List CallTree,
      treeForest? text ⟨root, false⟩ =
        some (CallTree.blocksOf (lines text.toList) trees) ∧
      Forest.allBlocks (CallTree.blocksOf (lines text.toList) trees) =
        (CallTree.allOf trees).map (CallTree.block (lines text.toList)) ∧
      (CallTree.calls trees).Sublist root.descendants ∧
      (CallTree.calls trees).Nodup ∧
      (∀ node ∈ root.descendants,
        node ∈ CallTree.calls trees ↔
          (callKind? node).isSome ∧ IsExposed root node) ∧
      (∀ tree ∈ trees, ∀ outer,
        root.Encloses outer tree.call → callKind? outer = none) ∧
      ∀ tree ∈ CallTree.allOf trees,
        callKind? tree.call = some tree.kind ∧
          (tree.kind = .scenario → tree.children = []) ∧
          ∀ child ∈ tree.children, IsNearest root tree.call child.call := by
  have noBlock : callKind? root = none :=
    callKind?_of_not_call (by simp [Node.isCall, program])
  rcases (exists_lists (lines text.toList) root).1 parsed noBlock with
    ⟨trees, blocks, lists⟩
  refine ⟨trees, ?_, CallTree.allOf_blocksOf trees, lists.ordered, ?_,
    lists.listed, lists.outermost, lists.nested⟩
  · simp [treeForest?, blocks]
  · exact lists.ordered.nodup (List.nodup_cons.mp parsed.distinct.nodup).2

/-- A node of a document, with its number, its text and the field it fills. -/
def documentNode (id : Nat) (type : String) (field? : Option String)
    (children : List Node) : Node :=
  .node { (default : Label) with id, type, field?, named := true, text := type }
    children

/--
A group with a call among its arguments, a context inside a helper, and a
scenario with a call inside.
-/
def toggleDocument : Node :=
  documentNode 0 "program" none [
    documentNode 1 "call" none [
      documentNode 2 "describe" "method" [],
      documentNode 3 "argument_list" "arguments" [
        documentNode 4 "call" none [documentNode 5 "it" "method" []]],
      documentNode 6 "do_block" "block" [
        documentNode 7 "call" none [
          documentNode 8 "helper" "method" [],
          documentNode 9 "block" "block" [
            documentNode 10 "call" none [
              documentNode 11 "context" "method" []]]],
        documentNode 12 "call" none [
          documentNode 13 "it" "method" [],
          documentNode 14 "do_block" "block" [
            documentNode 15 "call" none [
              documentNode 16 "it" "method" []]]]]]]

theorem treeForest?_eq_some_blocksOf_toggle :
    IsParsed toggleDocument ∧
      ∃ trees : List CallTree,
        treeForest? "" ⟨toggleDocument, false⟩ =
          some (CallTree.blocksOf [] trees) ∧
        ∀ node ∈ toggleDocument.descendants,
          node ∈ CallTree.calls trees ↔ node.id ∈ [1, 10, 12] := by
  have parsed : IsParsed toggleDocument := by
    constructor <;> decide +kernel
  refine ⟨parsed, ?_⟩
  rcases treeForest?_eq_some_blocksOf parsed rfl "" with
    ⟨trees, found, -, -, -, listed, -, -⟩
  refine ⟨trees, found, ?_⟩
  intro node lies
  have expected : ∀ node ∈ toggleDocument.descendants,
      IsListed toggleDocument node ↔ node.id ∈ [1, 10, 12] := by
    decide +kernel
  rw [listed node lies]
  exact expected node lies

end SpecAudit.Spec

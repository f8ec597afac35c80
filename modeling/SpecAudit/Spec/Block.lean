/-!
# Blocks of a spec document

A spec document is a forest of groups (`describe`, `context`) and scenarios (`it`, `example`,
`specify`).  The main statement of this module is `allBlocks_append`: listing the blocks of a
forest goes through its trees one after the other.
-/

namespace SpecAudit.Spec

/-- What a block declares. -/
inductive BlockKind where
  /-- A group of blocks. -/
  | group
  /-- A single scenario. -/
  | scenario
  deriving DecidableEq

/-- The line that declares a block: its text without what opens the block, its indentation, its
line number counted from one, and the kind of the block. -/
structure Heading where
  text : String
  indent : Nat
  line : Nat
  kind : BlockKind
  deriving DecidableEq

/-- A block: its heading and the blocks declared inside it. -/
inductive Block where
  | block (heading : Heading) (children : List Block)

/-- The blocks of a document that are not inside another block. -/
abbrev Forest := List Block

namespace Block

/-- The line that declares the block. -/
def heading : Block → Heading
  | block heading _ => heading

/-- The blocks directly inside. -/
def children : Block → List Block
  | block _ children => children

/-- Whether the block is a group. -/
def isGroup (block : Block) : Bool :=
  block.heading.kind == .group

/-- The groups directly inside. -/
def childGroups (block : Block) : List Block :=
  block.children.filter isGroup

/-- The scenarios directly inside. -/
def childScenarios (block : Block) : List Block :=
  block.children.filter (!·.isGroup)

mutual

/-- The block and every block inside it, in document order. -/
def all : Block → List Block
  | block heading children => block heading children :: allOf children

/-- Every block of a forest, in document order. -/
def allOf : List Block → List Block
  | [] => []
  | first :: rest => all first ++ allOf rest

end

end Block

namespace Forest

/-- Every block of a forest, in document order. -/
def allBlocks (forest : Forest) : List Block :=
  Block.allOf forest

/-- The blocks of two forests side by side are those of the one and then those of the other. -/
theorem allBlocks_append (left right : Forest) :
    Forest.allBlocks (left ++ right) = Forest.allBlocks left ++ Forest.allBlocks right := by
  unfold Forest.allBlocks
  induction left with
  | nil => simp [Block.allOf]
  | cons first rest induction => simp [Block.allOf, induction]

end Forest

end SpecAudit.Spec

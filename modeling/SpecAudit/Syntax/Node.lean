/-!
# Syntax trees

A node has a type, a place in the text, and children in order; a child may fill a named field of
its parent.  Nodes that carry no name of the grammar are there only to fill fields.  The main
statements of this module are `descendantsOf_append` and `mem_descendants_of_mem_children`: the
walk over the named nodes below a node goes through its children one after the other.
-/

namespace SpecAudit.Syntax

/-- A place in a text: the line feeds before it, and the bytes since the last of them. -/
structure Point where
  row : Nat
  column : Nat
  deriving DecidableEq, Inhabited

/-- What a node is apart from its children. -/
structure Label where
  /-- The number that tells the node from every other node of its tree. -/
  id : Nat
  /-- What the grammar calls the node, or the characters of a token. -/
  type : String
  /-- The field of the parent that the node fills. -/
  field? : Option String
  /-- Whether the node carries a name of the grammar. -/
  named : Bool
  /-- The bytes before the node. -/
  start : Nat
  /-- The bytes before the end of the node. -/
  stop : Nat
  /-- Where the node starts. -/
  startPoint : Point
  /-- Where the node ends. -/
  endPoint : Point
  /-- The text of the node. -/
  text : String
  deriving DecidableEq, Inhabited

/-- A node of a syntax tree. -/
inductive Node where
  | node (label : Label) (children : List Node)
  deriving Inhabited

/-- A syntax tree: its root, and whether the text had errors. -/
structure Tree where
  root : Node
  hasError : Bool
  deriving Inhabited

namespace Node

/-- What the node is apart from its children. -/
def label : Node → Label
  | node label _ => label

/-- The children of the node, in order. -/
def children : Node → List Node
  | node _ children => children

/-- What the grammar calls the node. -/
def type (node : Node) : String :=
  node.label.type

@[simp]
theorem label_node (label : Label) (children : List Node) : (node label children).label = label :=
  rfl

@[simp]
theorem children_node (label : Label) (children : List Node) :
    (node label children).children = children :=
  rfl

@[simp]
theorem type_node (label : Label) (children : List Node) :
    (node label children).type = label.type :=
  rfl

/-- The text of the node. -/
def text (node : Node) : String :=
  node.label.text

/-- The number of the node. -/
def id (node : Node) : Nat :=
  node.label.id

/-- The children that carry a name of the grammar. -/
def namedChildren (node : Node) : List Node :=
  node.children.filter (·.label.named)

/-- The first child that fills a field. -/
def child? (node : Node) (field : String) : Option Node :=
  node.children.find? fun child => child.label.field? == some field

/-- The text of the first child that fills a field, empty if there is none. -/
def childText (node : Node) (field : String) : String :=
  match node.child? field with
  | some child => child.text
  | none => ""

/-- Whether the bytes of a node are among those of another. -/
def covers (outer inner : Node) : Bool :=
  outer.label.start ≤ inner.label.start && inner.label.stop ≤ outer.label.stop

mutual

/-- The named nodes below a node, each before those below it. -/
def descendants : Node → List Node
  | node _ children => descendantsOf children

/-- The named nodes of a list and below it, each before those below it. -/
def descendantsOf : List Node → List Node
  | [] => []
  | first :: rest =>
    (if first.label.named then first :: descendants first else []) ++ descendantsOf rest

end

/-- The walk over two lists of nodes walks over the one and then over the other. -/
theorem descendantsOf_append (left right : List Node) :
    descendantsOf (left ++ right) = descendantsOf left ++ descendantsOf right := by
  induction left with
  | nil => simp [descendantsOf]
  | cons first rest induction => simp [descendantsOf, induction]

/-- A named child is met on the walk. -/
theorem mem_descendants_of_mem_children {label : Label} {children : List Node} {child : Node}
    (member : child ∈ children) (named : child.label.named = true) :
    child ∈ (node label children).descendants := by
  simp only [descendants]
  induction children with
  | nil => simp at member
  | cons first rest induction =>
    rw [descendantsOf]
    rcases List.mem_cons.1 member with rfl | later
    · simp [named]
    · exact List.mem_append_right _ (induction later)

end Node

/-- A node together with the nodes it lies in, the nearest first. -/
structure Occurrence where
  node : Node
  ancestors : List Node

namespace Node

mutual

/-- The named nodes below a node, each with the nodes it lies in. -/
def occurrences (ancestors : List Node) : Node → List Occurrence
  | node label children => occurrencesOf (node label children :: ancestors) children

/-- The named nodes of a list and below it, which lie in the given nodes. -/
def occurrencesOf (ancestors : List Node) : List Node → List Occurrence
  | [] => []
  | first :: rest =>
    (if first.label.named then ⟨first, ancestors⟩ :: occurrences ancestors first else [])
      ++ occurrencesOf ancestors rest

end

end Node

end SpecAudit.Syntax

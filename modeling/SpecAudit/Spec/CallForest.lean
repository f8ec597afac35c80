import SpecAudit.Grammar
import SpecAudit.Spec.Block
import SpecAudit.Spec.Keyword
import SpecAudit.Syntax.Statement
import SpecAudit.Text.Lines

/-!
# The blocks of a parsed spec document

Reads the blocks of a document off its syntax tree: a block is a call of one of the words that
declare blocks, without a receiver or on the framework itself.  Blocks inside a group are looked
for in the block that the call is given, and nowhere inside a scenario.
-/

namespace SpecAudit.Spec

open SpecAudit.Syntax SpecAudit.Text

/-- The kind of block that a node declares. -/
def callKind? (node : Node) : Option BlockKind :=
  if !node.isCall then none
  else
    match node.child? "receiver" with
    | some receiver =>
      if receiver.text.toList == qualifier then keywordKind? node.methodName else none
    | none => keywordKind? node.methodName

/-- As many characters of a text as fit into a number of bytes. -/
def takeBytes (bytes : Nat) : List Char → List Char
  | [] => []
  | character :: rest =>
    if character.utf8Size ≤ bytes then character :: takeBytes (bytes - character.utf8Size) rest
    else []

/-- The text of a call before the block that it is given. -/
def headingText (call : Node) : String :=
  let text := call.text.toList
  let before := match call.child? "block" with
    | some block => takeBytes (block.label.start - call.label.start) text
    | none => text
  String.ofList (trim before)

/-- The heading that a call declares, given the lines of the document. -/
def callHeading (lines : List (List Char)) (kind : BlockKind) (call : Node) : Heading :=
  let row := call.label.startPoint.row
  ⟨headingText call, indentOf (lines.getD row []), row + 1, kind⟩

mutual

/-- The blocks that a node declares or holds. -/
def callBlocks (lines : List (List Char)) : Node → List Block
  | .node label children =>
    match callKind? (.node label children) with
    | none => callBlocksOf lines children
    | some .group =>
      [.block (callHeading lines .group (.node label children)) (bodyBlocks lines children)]
    | some .scenario => [.block (callHeading lines .scenario (.node label children)) []]

/-- The blocks that the named nodes of a list declare or hold. -/
def callBlocksOf (lines : List (List Char)) : List Node → List Block
  | [] => []
  | first :: rest =>
    (if first.label.named then callBlocks lines first else []) ++ callBlocksOf lines rest

/-- The blocks inside the block that a call with the given children is given. -/
def bodyBlocks (lines : List (List Char)) : List Node → List Block
  | [] => []
  | first :: rest =>
    if first.label.field? == some "block" then innerBlocks lines first
    else bodyBlocks lines rest

/-- The blocks that the children of a node declare or hold. -/
def innerBlocks (lines : List (List Char)) : Node → List Block
  | .node _ children => callBlocksOf lines children

end

/-- The blocks of a document by its syntax tree, unless the tree has errors. -/
def treeForest? (text : String) (tree : Tree) : Option Forest :=
  if tree.hasError then none
  else some (innerBlocks (lines text.toList) tree.root)

/-- The blocks of a document by its syntax tree, if it can be parsed without errors. -/
def callForest? (grammar : Grammar) (text : String) : Option Forest :=
  match grammar.parse text with
  | .ok tree => treeForest? text tree
  | .error _ => none

end SpecAudit.Spec

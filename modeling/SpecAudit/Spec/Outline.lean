import SpecAudit.Spec.Keyword
import SpecAudit.Spec.Opener
import SpecAudit.Text.Lines

/-!
# The outline of a spec document

Recovers the blocks of a document from the indentation of its lines and a count of the constructs
that an `end` may close.  Any text has an outline; a heredoc or a string that looks like a
declaration is taken for one.

The outline is built line by line.  Its state holds the groups that are still open, the innermost
first, each with the number of constructs inside it that wait for their `end`.
-/

namespace SpecAudit.Spec

open SpecAudit.Text

/-- A group that is still open: its heading, the number of constructs in it that wait for their
`end`, and the blocks declared in it so far, the latest first. -/
structure OpenGroup where
  heading : Heading
  pending : Nat
  latest : List Block

namespace OpenGroup

/-- The block that the group is once it is closed. -/
def close (group : OpenGroup) : Block :=
  .block group.heading group.latest.reverse

/-- Declare blocks inside the group. -/
def adopt (group : OpenGroup) (blocks : List Block) : OpenGroup :=
  { group with latest := blocks ++ group.latest }

end OpenGroup

/-- The state of an outline: the finished blocks outside every group, the latest first, and the
open groups, the innermost first. -/
structure Outline where
  finished : List Block
  opened : List OpenGroup

namespace Outline

/-- The outline of no lines. -/
def start : Outline := ⟨[], []⟩

/-- Declare blocks in the innermost open group, or outside every group. -/
def declare (blocks : List Block) (outline : Outline) : Outline :=
  match outline.opened with
  | [] => { outline with finished := blocks ++ outline.finished }
  | group :: outer => { outline with opened := group.adopt blocks :: outer }

/-- Close the open groups that a line at an indentation is not inside of, from the innermost one
outwards; `closed` is the group closed just before, if any. -/
def closeGroups (indent : Nat) (finished : List Block) :
    List Block → List OpenGroup → Outline
  | closed, [] => ⟨closed ++ finished, []⟩
  | closed, group :: outer =>
    let group := group.adopt closed
    if indent ≤ group.heading.indent then closeGroups indent finished [group.close] outer
    else ⟨finished, group :: outer⟩

/-- Close the groups that a line at an indentation is not inside of. -/
def dedent (indent : Nat) (outline : Outline) : Outline :=
  closeGroups indent outline.finished [] outline.opened

/-- Close the innermost group. -/
def closeInnermost (outline : Outline) : Outline :=
  match outline.opened with
  | [] => outline
  | group :: outer => Outline.declare [group.close] { outline with opened := outer }

/-- Count one more construct that waits for its `end` in the innermost group. -/
def await (outline : Outline) : Outline :=
  match outline.opened with
  | [] => outline
  | group :: outer =>
    { outline with opened := { group with pending := group.pending + 1 } :: outer }

/-- An `end` to the right of the innermost group closes the latest construct that waits for one,
and the group itself if none does. -/
def takeEnd (outline : Outline) : Outline :=
  match outline.opened with
  | [] => outline
  | group :: outer =>
    if group.pending = 0 then outline.closeInnermost
    else { outline with opened := { group with pending := group.pending - 1 } :: outer }

/-- Whether a line at an indentation is to the right of the innermost open group. -/
def isInside (indent : Nat) (outline : Outline) : Bool :=
  match outline.opened with
  | [] => false
  | group :: _ => group.heading.indent < indent

/-- Take in a line that declares a block of some kind. -/
def takeDeclaration (kind : BlockKind) (number indent : Nat) (line : List Char)
    (outline : Outline) : Outline :=
  let (text, closed) := splitHeading line
  let heading : Heading := ⟨String.ofList text, indent, number, kind⟩
  if closed then outline.declare [.block heading []]
  else
    match kind with
    | .group => { outline with opened := ⟨heading, 0, []⟩ :: outline.opened }
    | .scenario =>
      let outline := outline.declare [.block heading []]
      if (beforeDo? line).isSome then outline.await else outline

/-- Take in a line, without blanks on either side and not empty, that stood at an indentation. -/
def takeLine (number indent : Nat) (line : List Char) (outline : Outline) : Outline :=
  if outline.isInside indent && isEnd line then outline.takeEnd
  else
    let outline := outline.dedent indent
    match declaredKind? line with
    | some kind => outline.takeDeclaration kind number indent line
    | none => if opensConstruct line then outline.await else outline

/-- Take in a numbered line of the document as it stands there. -/
def takeRawLine (outline : Outline) (numbered : Nat × List Char) : Outline :=
  let (number, raw) := numbered
  let line := trim raw
  if line.isEmpty then outline else outline.takeLine number (indentOf raw) line

/-- The blocks of an outline once every group is closed. -/
def forest (outline : Outline) : Forest :=
  (closeAll [] outline.opened ++ outline.finished).reverse
where
  /-- Close all groups from the innermost outwards. -/
  closeAll : List Block → List OpenGroup → List Block
    | closed, [] => closed
    | closed, group :: outer => closeAll [(group.adopt closed).close] outer

end Outline

/-- The blocks of a document, by the indentation of its lines. -/
def outlineForest (text : String) : Forest :=
  ((numberedLines text.toList).foldl Outline.takeRawLine .start).forest

end SpecAudit.Spec

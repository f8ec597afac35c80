import SpecAudit.Syntax.Node
import SpecAudit.Text.Utf8

/-!
# Syntax trees as tables

A tree can be given as a table of its nodes, each before the nodes below it, with the row of its
parent and the bytes it spans.  Texts and places of the nodes are read off the text of the tree.
-/

namespace SpecAudit.Syntax

/-- A node in a table: the row of its parent, its type, the field that it fills, whether it carries
a name of the grammar, and the bytes before its start and before its end. -/
structure Row where
  parent? : Option Nat
  type : String
  field? : Option String
  named : Bool
  start : Nat
  stop : Nat

/-- The place after one more byte. -/
def Point.advance (point : Point) (byte : UInt8) : Point :=
  if byte == 10 then ⟨point.row + 1, 0⟩ else ⟨point.row, point.column + 1⟩

/-- The place before every byte of a text, and the place at its end. -/
def points (bytes : ByteArray) : Array Point :=
  let walk := fun (state : Array Point × Point) byte =>
    let next := state.2.advance byte
    (state.1.push next, next)
  (bytes.toList.foldl walk (#[⟨0, 0⟩], ⟨0, 0⟩)).1

/-- What a row of a table says about its node. -/
def Row.label (bytes : ByteArray) (places : Array Point) (id : Nat) (row : Row) : Label :=
  { id := id
    type := row.type
    field? := row.field?
    named := row.named
    start := row.start
    stop := row.stop
    startPoint := places.getD row.start ⟨0, 0⟩
    endPoint := places.getD row.stop ⟨0, 0⟩
    text := Text.readBytes (bytes.extract row.start row.stop) }

/-- The nodes of a table that have the given parent, up to the first row that has another one, and
the rows after them. -/
def readNodes (label : Nat → Row → Label) :
    Nat → Option Nat → List (Nat × Row) → List Node × List (Nat × Row)
  | 0, _, rows => ([], rows)
  | _, _, [] => ([], [])
  | fuel + 1, parent?, (id, row) :: rest =>
    if row.parent? = parent? then
      let (children, rest) := readNodes label fuel (some id) rest
      let (siblings, rest) := readNodes label fuel parent? rest
      (.node (label id row) children :: siblings, rest)
    else ([], (id, row) :: rest)

/-- The tree of a text that holds nothing. -/
def emptyTree : Tree :=
  ⟨.node { (default : Label) with type := "program", named := true } [], false⟩

/-- The tree that a table describes. -/
def Tree.ofRows (source : String) (hasError : Bool) (rows : List Row) : Tree :=
  let bytes := source.toUTF8
  let places := points bytes
  let numbered := rows.mapIdx fun id row => (id, row)
  match (readNodes (Row.label bytes places) rows.length none numbered).1 with
  | root :: _ => ⟨root, hasError⟩
  | [] => emptyTree

end SpecAudit.Syntax

/-!
# Lines of a text

A text is cut into lines at every Unicode line boundary; a carriage return directly before a line
feed counts as one boundary with it, and a boundary at the very end opens no further line.
-/

namespace SpecAudit.Text

/-- Line feed, vertical tab, form feed, carriage return, the separators `0x1c` to `0x1e`, next
line, and the Unicode line and paragraph separators. -/
def isLineBoundary (character : Char) : Bool :=
  let code := character.toNat
  (10 ≤ code && code ≤ 13) || (28 ≤ code && code ≤ 30) || code == 0x85 || code == 0x2028
    || code == 0x2029

/-- Put a character in front of the first line, opening one if there is none. -/
def extendFirst (character : Char) : List (List Char) → List (List Char)
  | [] => [[character]]
  | line :: rest => (character :: line) :: rest

/-- The lines of a text, without their boundaries. -/
def lines : List Char → List (List Char)
  | [] => []
  | '\r' :: '\n' :: rest => [] :: lines rest
  | character :: rest =>
    if isLineBoundary character then [] :: lines rest else extendFirst character (lines rest)

/-- Every carriage return, alone or before a line feed, becomes one line feed. -/
def unifyNewlines : List Char → List Char
  | [] => []
  | '\r' :: '\n' :: rest => '\n' :: unifyNewlines rest
  | '\r' :: rest => '\n' :: unifyNewlines rest
  | character :: rest => character :: unifyNewlines rest

/-- The lines of a text numbered from one. -/
def numberedLines (characters : List Char) : List (Nat × List Char) :=
  (lines characters).mapIdx fun index line => (index + 1, line)

end SpecAudit.Text

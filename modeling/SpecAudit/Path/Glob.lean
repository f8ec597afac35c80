import SpecAudit.Text.Search

/-!
# Shell patterns

A shell pattern matches a whole name: `*` any characters, `?` any one character, `[…]` one
character of a set, `[!…]` one character outside it, and every other character itself.  A set may
hold ranges; a range whose ends are the wrong way round is empty, and a bracket that is never
closed stands for itself.
-/

namespace SpecAudit.Path.Glob

/-- One part of a pattern. -/
inductive Token where
  /-- Any characters. -/
  | anything
  /-- Any one character. -/
  | anyOne
  /-- This character. -/
  | literal (character : Char)
  /-- One character inside, or if negated outside, the pieces of a set. -/
  | oneOf (negated : Bool) (pieces : List (List Char))
  /-- A set without members. -/
  | nothing

/-- The text up to the bracket that closes a set, and what follows the bracket. -/
def untilClosing : List Char → Option (List Char × List Char)
  | [] => none
  | ']' :: rest => some ([], rest)
  | character :: rest => (untilClosing rest).map fun (body, after) => (character :: body, after)

/-- The body of a set after its opening bracket; a closing bracket that comes first, or directly
after the negation mark, belongs to the body. -/
def setBody? (characters : List Char) : Option (List Char × List Char) :=
  match characters with
  | '!' :: ']' :: rest => (untilClosing rest).map fun (body, after) => ('!' :: ']' :: body, after)
  | '!' :: rest => (untilClosing rest).map fun (body, after) => ('!' :: body, after)
  | ']' :: rest => (untilClosing rest).map fun (body, after) => (']' :: body, after)
  | _ => untilClosing characters

/-- Cut a set's body at the hyphens that make ranges.  `protect` counts the characters that still
belong to the piece at hand whatever they are: a hyphen there is a member of the set. -/
def pieces (protect : Nat) (piece : List Char) : List Char → List (List Char)
  | [] => [piece]
  | character :: rest =>
    match protect with
    | protect + 1 => pieces protect (piece ++ [character]) rest
    | 0 =>
      if character == '-' then piece :: pieces 2 [] rest
      else pieces 0 (piece ++ [character]) rest

/-- A hyphen at the very end of the body is a member of the piece before it. -/
def keepLastHyphen : List (List Char) → List (List Char)
  | [piece, []] => [piece ++ ['-']]
  | piece :: rest => piece :: keepLastHyphen rest
  | [] => []

/-- Drop the ranges whose start comes after their end, from the last range to the first. -/
def dropEmptyRanges : List (List Char) → List (List Char)
  | [] => []
  | piece :: rest =>
    match dropEmptyRanges rest with
    | [] => [piece]
    | next :: others =>
      match piece.getLast?, next.head? with
      | some low, some high =>
        if high < low then (piece.dropLast ++ next.drop 1) :: others
        else piece :: next :: others
      | _, _ => piece :: next :: others

/-- The token that a set's body stands for. -/
def setToken (body : List Char) : Token :=
  let protect := if body.head? = some '!' then 2 else 1
  let parts :=
    if body.contains '-' then dropEmptyRanges (keepLastHyphen (pieces protect [] body))
    else [body]
  match parts with
  | [[]] => .nothing
  | [['!']] => .anyOne
  | ('!' :: first) :: rest => .oneOf true (first :: rest)
  | parts => .oneOf false parts

/-- Whether a character lies between the last character of one piece and the first of the next;
without those, the hyphen between the pieces is a member itself. -/
def inRange (character : Char) (before after : List Char) : Bool :=
  match before.getLast?, after.head? with
  | some low, some high => low ≤ character && character ≤ high
  | _, _ => character == '-'

/-- Whether a character is in one of the pieces or in a range between two of them. -/
def inPieces (character : Char) : List (List Char) → Bool
  | [] => false
  | [piece] => piece.contains character
  | piece :: next :: rest =>
    piece.contains character || inRange character piece next || inPieces character (next :: rest)

/-- The tokens of a pattern. -/
def tokens : Nat → List Char → List Token
  | 0, _ => []
  | _, [] => []
  | fuel + 1, '*' :: rest => .anything :: tokens fuel rest
  | fuel + 1, '?' :: rest => .anyOne :: tokens fuel rest
  | fuel + 1, '[' :: rest =>
    match setBody? rest with
    | some (body, after) => setToken body :: tokens fuel after
    | none => .literal '[' :: tokens fuel rest
  | fuel + 1, character :: rest => .literal character :: tokens fuel rest

/-- A name and everything that is left of it after dropping characters from its front. -/
def suffixes : List Char → List (List Char)
  | [] => [[]]
  | character :: rest => (character :: rest) :: suffixes rest

/-- Whether tokens match a whole name. -/
def matchTokens : List Token → List Char → Bool
  | [], name => name.isEmpty
  | .anything :: rest, name => (suffixes name).any (matchTokens rest)
  | .anyOne :: rest, _ :: name => matchTokens rest name
  | .literal expected :: rest, character :: name => expected == character && matchTokens rest name
  | .oneOf negated parts :: rest, character :: name =>
    (inPieces character parts != negated) && matchTokens rest name
  | _ :: _, _ => false

/-- Whether a pattern matches a whole name. -/
def isMatch (pattern name : List Char) : Bool :=
  matchTokens (tokens pattern.length pattern) name

end SpecAudit.Path.Glob

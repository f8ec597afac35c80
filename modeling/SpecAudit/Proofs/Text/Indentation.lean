import Mathlib.Data.List.DropRight
import SpecAudit.Proofs.Text.Search

/-!
# Changing the indentation of a text

A text is made of its lines and of the boundaries between them.  Lines can be
changed one by one while the boundaries stay, and the lines of the text that
this makes are the changed ones, provided that no line gains a boundary and
that no line becomes empty or ceases to be.  Indenting the lines anew is such a
change, and it leaves a line as it is apart from its leading blanks.
-/

namespace SpecAudit.Text

/-! ## Lines with their boundaries -/

/-- A line of a text and the boundary behind it, which is empty where the text
ends without one. -/
structure Piece where
  line : List Char
  boundary : List Char

namespace Piece

/-- What a piece takes up in its text. -/
def characters (piece : Piece) : List Char :=
  piece.line ++ piece.boundary

/-- The piece with another line in front of its boundary. -/
def withLine (change : List Char → List Char) (piece : Piece) : Piece :=
  { piece with line := change piece.line }

end Piece

/-- Put a character in front of the first line, opening one if there is none. -/
def extendPiece (character : Char) : List Piece → List Piece
  | [] => [⟨[character], []⟩]
  | piece :: rest => piece.withLine (character :: ·) :: rest

/-- The lines of a text, each with its boundary. -/
def pieces : List Char → List Piece
  | [] => []
  | '\r' :: '\n' :: rest => ⟨[], ['\r', '\n']⟩ :: pieces rest
  | character :: rest =>
    if isLineBoundary character then ⟨[], [character]⟩ :: pieces rest
    else extendPiece character (pieces rest)

/-- The text that pieces make up. -/
def joinPieces (parts : List Piece) : List Char :=
  parts.flatMap Piece.characters

/-- The text with every line changed and every boundary as it was. -/
def mapLines (change : List Char → List Char) (text : List Char) : List Char :=
  joinPieces ((pieces text).map (Piece.withLine change))

theorem map_line_extendPiece (character : Char) (parts : List Piece) :
    (extendPiece character parts).map Piece.line =
      extendFirst character (parts.map Piece.line) := by
  cases parts <;> rfl

theorem joinPieces_extendPiece (character : Char) (parts : List Piece) :
    joinPieces (extendPiece character parts) =
      character :: joinPieces parts := by
  cases parts <;> rfl

theorem map_line_pieces (text : List Char) :
    (pieces text).map Piece.line = lines text := by
  induction text using pieces.induct with
  | case1 => rfl
  | case2 rest induction => simp [pieces, lines, induction]
  | case3 character rest notPair boundary induction =>
      rw [pieces, lines, if_pos boundary, if_pos boundary, List.map_cons,
        induction]
      · exact notPair
      · exact notPair
  | case4 character rest notPair inside induction =>
      rw [pieces, lines, if_neg inside, if_neg inside, map_line_extendPiece,
        induction]
      · exact notPair
      · exact notPair

/-- Nothing of a text is lost when it is cut into pieces. -/
theorem joinPieces_pieces (text : List Char) : joinPieces (pieces text) = text := by
  induction text using pieces.induct with
  | case1 => rfl
  | case2 rest induction =>
      rw [pieces]
      exact congrArg ('\r' :: '\n' :: ·) induction
  | case3 character rest notPair boundary induction =>
      rw [pieces, if_pos boundary]
      · exact congrArg (character :: ·) induction
      · exact notPair
  | case4 character rest notPair inside induction =>
      rw [pieces, if_neg inside, joinPieces_extendPiece, induction]
      exact notPair

/-! ## Pieces that a text is cut into -/

/-- Whether a line holds no line boundary. -/
def IsClean (line : List Char) : Prop :=
  ∀ character ∈ line, isLineBoundary character = false

/--
Pieces that are cut where their text is: no line holds a boundary, only the last
line may lack one, and then it is not empty, and a carriage return that is a
boundary alone is not followed by a line feed.
-/
inductive AreCut : List Piece → Prop where
  | nil : AreCut []
  | last {line : List Char} (clean : IsClean line) (inked : line ≠ []) :
      AreCut [⟨line, []⟩]
  | single {line : List Char} {character : Char} {rest : List Piece}
      (clean : IsClean line) (boundary : isLineBoundary character = true)
      (alone : character = '\r' → (joinPieces rest).head? ≠ some '\n')
      (others : AreCut rest) :
      AreCut (⟨line, [character]⟩ :: rest)
  | pair {line : List Char} {rest : List Piece} (clean : IsClean line)
      (others : AreCut rest) :
      AreCut (⟨line, ['\r', '\n']⟩ :: rest)

variable {line rest : List Char} {character : Char}

theorem isClean_cons :
    IsClean (character :: line) ↔
      isLineBoundary character = false ∧ IsClean line := by
  simp [IsClean]

theorem lines_cons_of_inside (inside : isLineBoundary character = false) :
    lines (character :: rest) = extendFirst character (lines rest) := by
  rw [lines, if_neg (by simp [inside])]
  rintro _ rfl
  cases inside

theorem lines_of_clean (clean : IsClean line) (inked : line ≠ []) :
    lines line = [line] := by
  induction line with
  | nil => exact absurd rfl inked
  | cons first others induction =>
      rw [isClean_cons] at clean
      rw [lines_cons_of_inside clean.1]
      cases others with
      | nil => rfl
      | cons second others =>
          rw [induction clean.2 (List.cons_ne_nil _ _)]
          rfl

/-- A clean line in front of a text becomes part of its first line. -/
theorem lines_append_of_clean (clean : IsClean line) {first : List Char}
    {others : List (List Char)} (cut : lines rest = first :: others) :
    lines (line ++ rest) = (line ++ first) :: others := by
  induction line with
  | nil => exact cut
  | cons start line induction =>
      rw [isClean_cons] at clean
      rw [List.cons_append, lines_cons_of_inside clean.1, induction clean.2]
      rfl

theorem lines_boundary (boundary : isLineBoundary character = true)
    (alone : character = '\r' → rest.head? ≠ some '\n') :
    lines (character :: rest) = [] :: lines rest := by
  rw [lines, if_pos boundary]
  rintro others isReturn rfl
  exact alone isReturn rfl

/-- The lines of a text are those that it is put together from. -/
theorem AreCut.lines_joinPieces {parts : List Piece} (cut : AreCut parts) :
    lines (joinPieces parts) = parts.map Piece.line := by
  induction cut with
  | nil => rfl
  | @last line clean inked =>
      have alone : joinPieces [⟨line, []⟩] = line := by
        simp [joinPieces, Piece.characters]
      rw [alone]
      exact lines_of_clean clean inked
  | @single line character rest clean boundary alone others induction =>
      have split : joinPieces (⟨line, [character]⟩ :: rest) =
          line ++ character :: joinPieces rest := by
        simp [joinPieces, Piece.characters]
      rw [split, lines_append_of_clean clean (lines_boundary boundary alone),
        induction, List.append_nil]
      rfl
  | @pair line rest clean others induction =>
      have split : joinPieces (⟨line, ['\r', '\n']⟩ :: rest) =
          line ++ '\r' :: '\n' :: joinPieces rest := by
        simp [joinPieces, Piece.characters]
      rw [split, lines_append_of_clean clean
          (show lines ('\r' :: '\n' :: joinPieces rest) =
            [] :: lines (joinPieces rest) by rw [lines]),
        induction, List.append_nil]
      rfl

theorem AreCut.extendPiece {parts : List Piece} (cut : AreCut parts)
    (inside : isLineBoundary character = false) :
    AreCut (extendPiece character parts) := by
  cases cut with
  | nil =>
      exact .last (isClean_cons.mpr ⟨inside, by simp [IsClean]⟩)
        (List.cons_ne_nil _ _)
  | last clean _ =>
      exact .last (isClean_cons.mpr ⟨inside, clean⟩) (List.cons_ne_nil _ _)
  | single clean boundary alone others =>
      exact .single (isClean_cons.mpr ⟨inside, clean⟩) boundary alone others
  | pair clean others => exact .pair (isClean_cons.mpr ⟨inside, clean⟩) others

theorem areCut_pieces (text : List Char) : AreCut (pieces text) := by
  have empty : IsClean [] := by simp [IsClean]
  induction text using pieces.induct with
  | case1 => exact .nil
  | case2 rest induction =>
      rw [pieces]
      exact .pair empty induction
  | case3 character rest notPair boundary induction =>
      rw [pieces, if_pos boundary]
      · refine .single empty boundary (fun isReturn => ?_) induction
        rw [joinPieces_pieces]
        intro isFeed
        rcases List.head?_eq_some_iff.mp isFeed with ⟨others, rfl⟩
        exact notPair others isReturn rfl
      · exact notPair
  | case4 character rest notPair inside induction =>
      rw [pieces, if_neg inside]
      · exact induction.extendPiece (by simpa using inside)
      · exact notPair

/-! ## Changed lines -/

/-- A change that gives no line a boundary, and makes no line empty but the
empty one. -/
structure KeepsLines (change : List Char → List Char) : Prop where
  clean : ∀ line, IsClean line → IsClean (change line)
  eq_nil_iff : ∀ line, change line = [] ↔ line = []

namespace KeepsLines

variable {change : List Char → List Char} (keeps : KeepsLines change)

include keeps

/-- A text whose lines are changed starts with a line feed only if it did. -/
theorem head?_joinPieces {parts : List Piece} (cut : AreCut parts)
    (notFeed : (joinPieces parts).head? ≠ some '\n') :
    (joinPieces (parts.map (Piece.withLine change))).head? ≠ some '\n' := by
  rcases parts with _ | ⟨⟨line, boundary⟩, rest⟩
  · exact notFeed
  have clean : IsClean line := by
    cases cut <;> assumption
  by_cases empty : line = []
  · subst empty
    have same : change [] = [] := (keeps.eq_nil_iff []).mpr rfl
    cases cut with
    | last _ inked => exact absurd rfl inked
    | single _ _ _ _ =>
        simpa [joinPieces, Piece.characters, Piece.withLine, same] using notFeed
    | pair _ _ => simp [joinPieces, Piece.characters, Piece.withLine, same]
  · have inked : change line ≠ [] := fun gone =>
      empty ((keeps.eq_nil_iff line).mp gone)
    rcases List.exists_cons_of_ne_nil inked with ⟨first, others, changed⟩
    have inside := keeps.clean line clean first (by simp [changed])
    simp only [joinPieces, List.map_cons, List.flatMap_cons, Piece.characters,
      Piece.withLine, changed, List.cons_append, List.head?_cons]
    rintro isFeed
    rw [Option.some.inj isFeed] at inside
    cases inside

theorem areCut {parts : List Piece} (cut : AreCut parts) :
    AreCut (parts.map (Piece.withLine change)) := by
  induction cut with
  | nil => exact .nil
  | last clean inked =>
      exact .last (keeps.clean _ clean)
        fun gone => inked ((keeps.eq_nil_iff _).mp gone)
  | single clean boundary alone others induction =>
      exact .single (keeps.clean _ clean) boundary
        (fun isReturn => keeps.head?_joinPieces others (alone isReturn)) induction
  | pair clean others induction => exact .pair (keeps.clean _ clean) induction

/-- The lines of a text whose lines are changed are the changed lines. -/
theorem lines_mapLines (text : List Char) :
    lines (mapLines change text) = (lines text).map change := by
  rw [mapLines, (keeps.areCut (areCut_pieces text)).lines_joinPieces,
    ← map_line_pieces, List.map_map, List.map_map]
  rfl

end KeepsLines

/-! ## Indenting anew -/

/-- A line with as many spaces in front as its indentation is changed to.  A
blank line stays as it is. -/
def reindentedLine (change : Nat → Nat) (raw : List Char) : List Char :=
  if trim raw = [] then raw
  else List.replicate (change (indentOf raw)) ' ' ++ trimLeft raw

/-- A text with the indentation of every line changed that is not blank. -/
def reindented (change : Nat → Nat) (text : String) : String :=
  String.ofList (mapLines (reindentedLine change) text.toList)

/-- The indentations of the lines of a text that are not blank. -/
def indents (text : String) : List Nat :=
  ((lines text.toList).filter (trim · ≠ [])).map indentOf

theorem mem_indents {raw : List Char} {text : String}
    (member : raw ∈ lines text.toList) (inked : trim raw ≠ []) :
    indentOf raw ∈ indents text :=
  List.mem_map_of_mem (List.mem_filter.mpr ⟨member, by simpa using inked⟩)

variable {change : Nat → Nat} {raw : List Char}

theorem trimLeft_replicate_append (count : Nat) (text : List Char) :
    trimLeft (List.replicate count ' ' ++ text) = trimLeft text := by
  induction count with
  | zero => rfl
  | succ count induction =>
      rw [List.replicate_succ, List.cons_append, trimLeft_cons_of_isBlank rfl,
        induction]

theorem trimLeft_trimLeft (text : List Char) :
    trimLeft (trimLeft text) = trimLeft text :=
  List.dropWhile_idempotent isBlank text

theorem trim_reindentedLine : trim (reindentedLine change raw) = trim raw := by
  unfold reindentedLine
  split
  · rfl
  · rw [trim, trimLeft_replicate_append, trimLeft_trimLeft, trim]

theorem indentOf_replicate_append (count : Nat) {text : List Char}
    (start : text.takeWhile isBlank = []) :
    indentOf (List.replicate count ' ' ++ text) = count := by
  have blank : ∀ character ∈ List.replicate count ' ',
      isBlank character = true := by
    intro character member
    rw [List.eq_of_mem_replicate member]
    rfl
  rw [indentOf, List.takeWhile_append_of_pos blank, start, List.append_nil,
    List.length_replicate]

theorem indentOf_reindentedLine (inked : trim raw ≠ []) :
    indentOf (reindentedLine change raw) = change (indentOf raw) := by
  rw [reindentedLine, if_neg inked]
  apply indentOf_replicate_append
  rw [trimLeft, List.takeWhile_eq_nil_iff]
  intro nonempty
  simpa using List.dropWhile_get_zero_not isBlank raw nonempty

theorem keepsLines_reindentedLine (change : Nat → Nat) :
    KeepsLines (reindentedLine change) where
  clean line clean := by
    unfold reindentedLine
    split
    · exact clean
    · intro character member
      rcases List.mem_append.mp member with space | kept
      · rw [List.eq_of_mem_replicate space]
        rfl
      · exact clean character ((List.dropWhile_sublist isBlank).subset kept)
  eq_nil_iff line := by
    constructor
    · intro gone
      by_cases inked : trim line = []
      · rwa [reindentedLine, if_pos inked] at gone
      · have same : trim (reindentedLine change line) = trim line :=
          trim_reindentedLine
        rw [gone] at same
        exact absurd same.symm inked
    · rintro rfl
      rfl

theorem lines_reindented (change : Nat → Nat) (text : String) :
    lines (reindented change text).toList =
      (lines text.toList).map (reindentedLine change) := by
  rw [reindented, String.toList_ofList]
  exact (keepsLines_reindentedLine change).lines_mapLines text.toList

end SpecAudit.Text

import SpecAudit.Proofs.Text.Indentation

/-!
# Line feeds and other line boundaries

A text can be cut into lines at its line feeds alone or at every line boundary.
In front of a place in the text the two count the same lines exactly if each
boundary there is a line feed, or a carriage return together with one.  Then the
line that goes on at the place is indented alike in both.
-/

namespace SpecAudit.Text

/-- Whether every line boundary of a text is a line feed, a carriage return
directly before it aside. -/
def breaksAtFeeds : List Char → Bool
  | [] => true
  | '\r' :: '\n' :: rest => breaksAtFeeds rest
  | character :: rest =>
      (character == '\n' || !isLineBoundary character) && breaksAtFeeds rest

/-- The line with the given number of line feeds in front of it. -/
def lineAt (text : List Char) (row : Nat) : List Char :=
  (text.splitOn '\n').getD row []

variable {character first : Char} {before after rest : List Char} {row : Nat}

theorem isBlank_of_isLineBoundary (boundary : isLineBoundary character = true) :
    isBlank character = true := by
  simp only [isLineBoundary, isBlank, Bool.or_eq_true, Bool.and_eq_true,
    decide_eq_true_eq, beq_iff_eq] at boundary ⊢
  omega

theorem not_isLineBoundary_of_inked (inked : isBlank first = false) :
    isLineBoundary first = false := by
  by_contra boundary
  rw [isBlank_of_isLineBoundary (by simpa using boundary)] at inked
  cases inked

theorem ne_feed_of_inside (inside : isLineBoundary character = false) :
    character ≠ '\n' := by
  rintro rfl
  cases inside

theorem indentOf_cons (character : Char) (line : List Char) :
    indentOf (character :: line) =
      if isBlank character then indentOf line + 1 else 0 := by
  rw [indentOf, List.takeWhile_cons]
  split <;> rfl

/-! ## Cutting behind a character -/

theorem lineAt_cons_feed (rest : List Char) (row : Nat) :
    lineAt ('\n' :: rest) (row + 1) = lineAt rest row := by
  rw [lineAt, List.splitOn_cons_eq_if_modifyHead]
  rfl

theorem lineAt_cons_zero (other : character ≠ '\n') (rest : List Char) :
    lineAt (character :: rest) 0 = character :: lineAt rest 0 := by
  rw [lineAt, lineAt, List.splitOn_cons_eq_if_modifyHead, if_neg (by simpa using other)]
  cases cut : rest.splitOn '\n' with
  | nil => exact absurd cut (List.splitOn_ne_nil _ _)
  | cons line others => rfl

theorem lineAt_cons_succ (other : character ≠ '\n') (rest : List Char) (row : Nat) :
    lineAt (character :: rest) (row + 1) = lineAt rest (row + 1) := by
  rw [lineAt, lineAt, List.splitOn_cons_eq_if_modifyHead, if_neg (by simpa using other)]
  cases rest.splitOn '\n' <;> rfl

theorem getD_extendFirst_zero (character : Char) (cut : List (List Char)) :
    (extendFirst character cut).getD 0 [] = character :: cut.getD 0 [] := by
  cases cut <;> rfl

theorem getD_extendFirst_succ (character : Char) (cut : List (List Char))
    (row : Nat) :
    (extendFirst character cut).getD (row + 1) [] = cut.getD (row + 1) [] := by
  cases cut <;> rfl

theorem length_extendFirst (character : Char) {cut : List (List Char)}
    (nonempty : cut ≠ []) : (extendFirst character cut).length = cut.length := by
  cases cut with
  | nil => contradiction
  | cons line others => rfl

theorem lines_cons_feed (rest : List Char) :
    lines ('\n' :: rest) = [] :: lines rest :=
  lines_boundary (by decide) (by simp)

/-! ## The line that goes on at a place -/

/-- Behind line feeds alone the line that goes on is indented alike, wherever
else a text is cut. -/
theorem indentOf_getD_lines (feeds : breaksAtFeeds before = true)
    (inked : isBlank first = false) (after : List Char) :
    indentOf ((lines (before ++ first :: after)).getD (before.count '\n') []) =
      indentOf (lineAt (before ++ first :: after) (before.count '\n')) := by
  induction before using breaksAtFeeds.induct with
  | case1 =>
      have inside := not_isLineBoundary_of_inked inked
      rw [List.nil_append, List.count_nil, lines_cons_of_inside inside,
        getD_extendFirst_zero, lineAt_cons_zero (ne_feed_of_inside inside),
        indentOf_cons, indentOf_cons, inked]
      rfl
  | case2 rest induction =>
      rw [breaksAtFeeds] at feeds
      have counted : ('\r' :: '\n' :: rest).count '\n' = rest.count '\n' + 1 := by
        simp
      rw [counted, List.cons_append, List.cons_append, lines,
        lineAt_cons_succ (by decide), lineAt_cons_feed]
      exact induction feeds
  | case3 character rest notPair induction =>
      rw [breaksAtFeeds, Bool.and_eq_true] at feeds
      · have others := induction feeds.2
        by_cases isFeed : character = '\n'
        · rw [isFeed, List.count_cons_self, List.cons_append, lines_cons_feed,
            lineAt_cons_feed]
          exact others
        · have inside : isLineBoundary character = false := by
            simpa [isFeed] using feeds.1
          rw [List.count_cons_of_ne isFeed, List.cons_append,
            lines_cons_of_inside inside]
          -- The character stands on the line that goes on, or on one before it.
          cases counted : rest.count '\n' with
          | zero =>
              rw [counted] at others
              rw [getD_extendFirst_zero, lineAt_cons_zero isFeed, indentOf_cons,
                indentOf_cons, others]
          | succ row =>
              rw [counted] at others
              rw [getD_extendFirst_succ, lineAt_cons_succ isFeed, others]
      · exact notPair

theorem boundary_alone {rest : List Char} (inked : isBlank first = false)
    (notPair : ∀ others, character = '\r' → rest = '\n' :: others → False) :
    character = '\r' → (rest ++ [first]).head? ≠ some '\n' := by
  intro isReturn isFeed
  cases rest with
  | nil =>
      injection isFeed with isFeed
      exact ne_feed_of_inside (not_isLineBoundary_of_inked inked) isFeed
  | cons second others =>
      injection isFeed with isFeed
      exact notPair others isReturn (by rw [isFeed])

/-- The lines up to a place are at least the line feeds in front of it and one
more, and exactly these if every boundary there is a line feed. -/
theorem length_lines_append (inked : isBlank first = false)
    (before : List Char) :
    before.count '\n' + 1 ≤ (lines (before ++ [first])).length ∧
      ((lines (before ++ [first])).length = before.count '\n' + 1 ↔
        breaksAtFeeds before = true) := by
  induction before using breaksAtFeeds.induct with
  | case1 =>
      rw [List.nil_append, lines_cons_of_inside
        (not_isLineBoundary_of_inked inked)]
      simp [lines, extendFirst, breaksAtFeeds]
  | case2 rest induction =>
      have counted : ('\r' :: '\n' :: rest).count '\n' = rest.count '\n' + 1 := by
        simp
      rw [counted, List.cons_append, List.cons_append, lines, List.length_cons,
        breaksAtFeeds, ← induction.2]
      omega
  | case3 character rest notPair induction =>
      rw [List.cons_append, breaksAtFeeds, Bool.and_eq_true, ← induction.2]
      · by_cases isFeed : character = '\n'
        · rw [isFeed, List.count_cons_self, lines_cons_feed, List.length_cons]
          simp
          omega
        · rw [List.count_cons_of_ne isFeed]
          cases boundary : isLineBoundary character with
          | true =>
              rw [lines_boundary boundary (boundary_alone inked notPair),
                List.length_cons]
              simp [isFeed]
              omega
          | false =>
              have nonempty : lines (rest ++ [first]) ≠ [] := by
                intro nothing
                rw [nothing, List.length_nil] at induction
                omega
              rw [lines_cons_of_inside boundary, length_extendFirst _ nonempty]
              simpa using induction.1
      · exact notPair

end SpecAudit.Text

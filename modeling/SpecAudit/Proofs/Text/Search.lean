import Mathlib.Data.List.Basic
import SpecAudit.Text.Lines
import SpecAudit.Text.Search

/-!
# What trimming and searching leave of a text

Trimming takes characters away and adds none, it stops at the last character
that is not blank, and no line of a text holds a line boundary.  A search for
the first place where a condition holds finds the place it is known to hold
at, provided that it holds nowhere before.
-/

namespace SpecAudit.Text

/-! ## Trimming -/

theorem isBlank_of_mem_takeWhile {text : List Char} {character : Char}
    (member : character ∈ text.takeWhile isBlank) :
    isBlank character = true :=
  List.all_eq_true.mp List.all_takeWhile character member

theorem trimRight_append_singleton {character : Char}
    (notBlank : isBlank character = false) (text : List Char) :
    trimRight (text ++ [character]) = text ++ [character] := by
  induction text with
  | nil => simp [trimRight, notBlank]
  | cons first rest induction =>
      rw [List.cons_append, trimRight, induction]
      cases rest <;> rfl

theorem mem_of_mem_trimRight {text : List Char} {character : Char}
    (member : character ∈ trimRight text) :
    character ∈ text := by
  induction text with
  | nil => exact member
  | cons first rest induction =>
      rw [trimRight] at member
      split at member
      · split at member
        · cases member
        · rw [List.mem_singleton.mp member]
          exact List.mem_cons_self
      · rcases List.mem_cons.mp member with same | later
        · rw [same]
          exact List.mem_cons_self
        · exact List.mem_cons_of_mem _ (induction later)

theorem mem_of_mem_trim {text : List Char} {character : Char}
    (member : character ∈ trim text) :
    character ∈ text := by
  have kept : character ∈ text.dropWhile isBlank :=
    mem_of_mem_trimRight member
  exact (List.dropWhile_sublist isBlank).subset kept

@[simp]
theorem trimLeft_cons_of_not_isBlank {character : Char}
    (notBlank : isBlank character = false) (rest : List Char) :
    trimLeft (character :: rest) = character :: rest := by
  simp [trimLeft, notBlank]

@[simp]
theorem trimLeft_cons_of_isBlank {character : Char}
    (blank : isBlank character = true) (rest : List Char) :
    trimLeft (character :: rest) = trimLeft rest := by
  simp [trimLeft, blank]

theorem trimRight_cons_of_not_isBlank {character : Char}
    (notBlank : isBlank character = false) (rest : List Char) :
    trimRight (character :: rest) = character :: trimRight rest := by
  rw [trimRight]
  split
  · rename_i empty
    rw [notBlank, empty]
    rfl
  · rfl

theorem trimLeft_append_cons {character : Char}
    (notBlank : isBlank character = false) (front rest : List Char) :
    trimLeft (front ++ character :: rest) =
      trimLeft front ++ character :: rest := by
  induction front with
  | nil => exact trimLeft_cons_of_not_isBlank notBlank rest
  | cons first others induction =>
      cases blank : isBlank first with
      | true =>
          rw [List.cons_append, trimLeft_cons_of_isBlank blank, induction,
            trimLeft_cons_of_isBlank blank]
      | false =>
          rw [List.cons_append, trimLeft_cons_of_not_isBlank blank,
            trimLeft_cons_of_not_isBlank blank]
          rfl

theorem trimRight_append_cons {character : Char}
    (notBlank : isBlank character = false) (front rest : List Char) :
    trimRight (front ++ character :: rest) =
      front ++ character :: trimRight rest := by
  induction front with
  | nil => exact trimRight_cons_of_not_isBlank notBlank rest
  | cons first others induction =>
      rw [List.cons_append, trimRight, induction]
      cases others <;> rfl

theorem trimRight_trimRight (text : List Char) :
    trimRight (trimRight text) = trimRight text := by
  induction text with
  | nil => rfl
  | cons first rest induction =>
      rw [trimRight]
      split
      · split
        · rfl
        · rename_i solid
          exact trimRight_cons_of_not_isBlank (by simpa using solid) []
      · rw [trimRight, induction]
        split
        · contradiction
        · rfl

/-- A text that was trimmed has nothing left to trim. -/
theorem trim_trim (text : List Char) : trim (trim text) = trim text := by
  have start := List.head?_dropWhile_not isBlank text
  unfold trim
  rw [← trimLeft] at start
  cases kept : trimLeft text with
  | nil => rfl
  | cons first rest =>
      rw [kept] at start
      rw [trimRight_cons_of_not_isBlank start,
        trimLeft_cons_of_not_isBlank start,
        trimRight_cons_of_not_isBlank start, trimRight_trimRight]

/-! ## Lines -/

theorem not_isLineBoundary_of_mem_extendFirst {character : Char}
    (inside : isLineBoundary character = false)
    {others : List (List Char)}
    (clean : ∀ line ∈ others, ∀ letter ∈ line, isLineBoundary letter = false) :
    ∀ line ∈ extendFirst character others,
      ∀ letter ∈ line, isLineBoundary letter = false := by
  intro line member letter present
  cases others with
  | nil =>
      simp only [extendFirst, List.mem_singleton] at member
      subst member
      rw [List.mem_singleton.mp present]
      exact inside
  | cons first rest =>
      simp only [extendFirst, List.mem_cons] at member
      rcases member with rfl | later
      · rcases List.mem_cons.mp present with rfl | old
        · exact inside
        · exact clean first List.mem_cons_self letter old
      · exact clean line (List.mem_cons_of_mem _ later) letter present

theorem not_isLineBoundary_of_mem_lines {text : List Char} :
    ∀ line ∈ lines text, ∀ letter ∈ line, isLineBoundary letter = false := by
  induction text using lines.induct with
  | case1 => simp [lines]
  | case2 rest induction =>
      intro line member letter present
      rw [lines, List.mem_cons] at member
      rcases member with rfl | later
      · cases present
      · exact induction line later letter present
  | case3 character rest notPair boundary induction =>
      intro line member letter present
      rw [lines, if_pos boundary, List.mem_cons] at member
      · rcases member with rfl | later
        · cases present
        · exact induction line later letter present
      · exact notPair
  | case4 character rest notPair inside induction =>
      intro line member letter present
      rw [lines, if_neg inside] at member
      · exact not_isLineBoundary_of_mem_extendFirst
          (by simpa using inside) induction line member letter present
      · exact notPair

/-! ## Searching -/

/-- The search goes on behind what no place lies in. -/
theorem textBefore?_append_of_earlier {holds : List Char → Bool}
    {before rest : List Char}
    (earlier : ∀ ending, ending ≠ [] → ending <:+ before →
      holds (ending ++ rest) = false) :
    textBefore? holds (before ++ rest) =
      (textBefore? holds rest).map (before ++ ·) := by
  induction before with
  | nil => simp
  | cons first before induction =>
      have skipped : holds (first :: (before ++ rest)) = false :=
        earlier (first :: before) (List.cons_ne_nil _ _) List.suffix_rfl
      have later := induction fun ending proper suffix =>
        earlier ending proper (suffix.trans (List.suffix_cons first before))
      simp [textBefore?, skipped, later, Function.comp_def]

/--
If a condition holds of a text and of no text that some end of what stands
before it makes together with it, the search stops exactly there.
-/
theorem textBefore?_append {holds : List Char → Bool} {before rest : List Char}
    (here : holds rest = true) (nonempty : rest ≠ [])
    (earlier : ∀ ending, ending ≠ [] → ending <:+ before →
      holds (ending ++ rest) = false) :
    textBefore? holds (before ++ rest) = some before := by
  have starts : textBefore? holds rest = some [] := by
    rcases List.exists_cons_of_ne_nil nonempty with ⟨first, others, rfl⟩
    simp [textBefore?, here]
  rw [textBefore?_append_of_earlier earlier, starts, Option.map_some,
    List.append_nil]

theorem prefix_of_textBefore? {holds : List Char → Bool}
    {text before : List Char} (found : textBefore? holds text = some before) :
    before <+: text := by
  induction text generalizing before with
  | nil => cases found
  | cons first rest induction =>
      rw [textBefore?] at found
      split at found
      · cases found
        exact List.nil_prefix
      · rcases Option.map_eq_some_iff.mp found with ⟨later, within, rfl⟩
        exact List.cons_prefix_cons.mpr ⟨rfl, induction within⟩

theorem isSome_textBefore?_iff {holds : List Char → Bool} {text : List Char} :
    (textBefore? holds text).isSome = true ↔
      ∃ ending, ending ≠ [] ∧ ending <:+ text ∧ holds ending = true := by
  induction text with
  | nil =>
      constructor
      · intro found
        cases found
      · rintro ⟨ending, proper, suffix, -⟩
        exact absurd (List.suffix_nil.mp suffix) proper
  | cons first rest induction =>
      rw [textBefore?]
      split
      · next here =>
          exact ⟨fun _ => ⟨_, List.cons_ne_nil _ _, List.suffix_rfl, here⟩,
            fun _ => rfl⟩
      · next absent =>
          rw [Option.isSome_map, induction]
          constructor
          · rintro ⟨ending, proper, suffix, found⟩
            exact ⟨ending, proper, suffix.trans (List.suffix_cons first rest),
              found⟩
          · rintro ⟨ending, proper, suffix, found⟩
            rcases List.suffix_cons_iff.mp suffix with rfl | later
            · exact absurd found absent
            · exact ⟨ending, proper, later, found⟩

/-- If a condition holds of no end of a text, the search finds nothing. -/
theorem textBefore?_eq_none {holds : List Char → Bool} {text : List Char}
    (never : ∀ ending, ending ≠ [] → ending <:+ text →
      holds ending = false) :
    textBefore? holds text = none := by
  rw [← Option.not_isSome_iff_eq_none, isSome_textBefore?_iff]
  rintro ⟨ending, proper, suffix, found⟩
  rw [never ending proper suffix] at found
  cases found

end SpecAudit.Text

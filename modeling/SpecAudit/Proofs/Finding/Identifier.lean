import Mathlib.Data.List.Infix
import SpecAudit.Finding.Basic

/-!
# What identifiers tell apart

The identifier of a finding spells the check, the file, the name and the line,
with two colons between them.  Neither the name of a check nor a line holds a
colon, so both can be told from the ends of an identifier.  Where one file ends
and a name begins can be told if the file is known, and otherwise as long as no
name holds the ending of a source.
-/

namespace SpecAudit.Finding

/-! ## Texts with marks -/

section Marks

variable {mark : Char} {left left' right right' : List Char}

/-- Texts that are cut at the first place of a mark are cut alike. -/
theorem eq_of_append_cons_eq (absent : mark ∉ left) (absent' : mark ∉ left')
    (same : left ++ mark :: right = left' ++ mark :: right') :
    left = left' ∧ right = right' := by
  induction left generalizing left' with
  | nil =>
      cases left' with
      | nil => exact ⟨rfl, List.tail_eq_of_cons_eq same⟩
      | cons first left' =>
          have here := List.head_eq_of_cons_eq same
          exact absurd List.mem_cons_self (here ▸ absent')
  | cons first left induction =>
      cases left' with
      | nil =>
          have here := List.head_eq_of_cons_eq same
          exact absurd List.mem_cons_self (here ▸ absent)
      | cons first' left' =>
          rcases List.cons_eq_cons.mp same with ⟨here, later⟩
          rcases induction (List.not_mem_of_not_mem_cons absent)
            (List.not_mem_of_not_mem_cons absent') later with ⟨lefts, rights⟩
          exact ⟨by rw [here, lefts], rights⟩

/-- Texts that are cut at the last place of a mark are cut alike. -/
theorem eq_of_append_cons_eq_last (absent : mark ∉ right)
    (absent' : mark ∉ right')
    (same : left ++ mark :: right = left' ++ mark :: right') :
    left = left' ∧ right = right' := by
  have reversed := congrArg List.reverse same
  simp only [List.reverse_append, List.reverse_cons, List.append_assoc,
    List.singleton_append] at reversed
  rcases eq_of_append_cons_eq (by simpa using absent) (by simpa using absent')
    reversed with ⟨rights, lefts⟩
  exact ⟨List.reverse_injective lefts, List.reverse_injective rights⟩

end Marks

/-! ## Parts of an identifier -/

variable {file file' name name' : String} {line line' : Nat} {cop cop' : Cop}

/-- What an identifier says of a name, which is nothing of the empty one. -/
def namePart (name : String) : List Char :=
  if name.isEmpty then [] else ':' :: ':' :: name.toList

theorem namePart_injective (same : namePart name = namePart name') :
    name = name' := by
  unfold namePart at same
  split at same <;> split at same
  · simp_all
  · cases same
  · cases same
  · exact String.toList_injective (by simpa using same)

theorem colon_not_mem_name (cop : Cop) : ':' ∉ cop.name.toList := by
  cases cop <;> decide

theorem name_injective (same : cop.name = cop'.name) : cop = cop' := by
  revert same
  cases cop <;> cases cop' <;> decide

theorem toList_toString (line : Nat) :
    (toString (line : Int)).toList = Nat.toDigits 10 line :=
  Nat.toList_repr

theorem colon_not_mem_toString (line : Nat) :
    ':' ∉ (toString (line : Int)).toList := by
  intro member
  rw [toList_toString] at member
  have digit := Nat.isDigit_of_mem_toDigits (by decide) (by decide) member
  exact absurd digit (by decide)

theorem toString_injective
    (same : (toString (line : Int)).toList = (toString (line' : Int)).toList) :
    line = line' := by
  rw [toList_toString, toList_toString] at same
  have numbers := congrArg (Nat.ofDigitChars 10 · 0) same
  simpa only [Nat.ofDigitChars_ten_toDigits] using numbers

theorem toList_identifier (detector file name : String) (line : Int) :
    (identifier detector file name line).toList =
      detector.toList ++ ':' :: (':' :: (file.toList ++ namePart name ++
        [':']) ++ ':' :: (toString line).toList) := by
  have colons : (toString "::").toList = [':', ':'] := rfl
  have text (part : String) : (toString part).toList = part.toList := rfl
  unfold identifier namePart
  split <;> simp [colons, text, -Int.toString_eq_repr]

/-- An identifier tells the check, the line, and the file together with the
name. -/
theorem eq_of_identifier_eq
    (same : identifier cop.name file name line =
      identifier cop'.name file' name' line') :
    cop = cop' ∧ line = line' ∧
      file.toList ++ namePart name = file'.toList ++ namePart name' := by
  have characters := congrArg String.toList same
  rw [toList_identifier, toList_identifier] at characters
  rcases eq_of_append_cons_eq (colon_not_mem_name cop) (colon_not_mem_name cop')
    characters with ⟨cops, behind⟩
  rcases eq_of_append_cons_eq_last (colon_not_mem_toString line)
    (colon_not_mem_toString line') behind with ⟨middle, lines⟩
  refine ⟨name_injective (String.toList_injective cops),
    toString_injective lines, ?_⟩
  exact List.append_cancel_right (List.tail_eq_of_cons_eq middle)

/-! ## Names that hold the ending of a source -/

/-- Whether a name does not hold the ending of a source. -/
def IsPlain (name : String) : Prop :=
  ¬ ".rb".toList <:+: name.toList

instance (name : String) : Decidable (IsPlain name) :=
  inferInstanceAs (Decidable (¬ _))

/-- Whether a path is a source, or holds no colon that could open a name. -/
def EndsAsSource (file : String) : Prop :=
  ':' ∈ file.toList → ".rb".toList <:+ file.toList

/-- What follows a file in its identifier does not make up another file. -/
theorem eq_nil_of_append_eq {more part : List Char}
    (ends : EndsAsSource file') (plain : IsPlain name)
    (longer : file'.toList = file.toList ++ more)
    (rest : namePart name = more ++ part) : more = [] := by
  by_contra nonempty
  rcases List.exists_cons_of_ne_nil nonempty with ⟨first, others, rfl⟩
  unfold namePart at rest
  split at rest
  · cases rest
  · have colon : ':' = first := List.head_eq_of_cons_eq rest
    subst colon
    have ending := ends (by simp [longer])
    rw [longer] at ending
    have last : ':' :: others <:+ file.toList ++ ':' :: others :=
      List.suffix_append _ _
    rcases List.suffix_or_suffix_of_suffix ending last with inner | short
    · apply plain
      have whole : ".rb".toList <:+: ':' :: ':' :: name.toList := by
        rw [rest]
        exact inner.isInfix.trans (List.prefix_append _ _).isInfix
      simpa [List.infix_cons_iff] using whole
    · exact absurd (short.subset List.mem_cons_self) (by decide)

/-- The identifier of a finding tells which check it was, in which file, about
which name and on which line. -/
theorem identifier_injective (ends : EndsAsSource file)
    (ends' : EndsAsSource file') (plain : IsPlain name)
    (plain' : IsPlain name')
    (same : identifier cop.name file name line =
      identifier cop'.name file' name' line') :
    cop = cop' ∧ file = file' ∧ name = name' ∧ line = line' := by
  rcases eq_of_identifier_eq same with ⟨cops, lines, parts⟩
  have files : file.toList = file'.toList := by
    rcases List.append_eq_append_iff.mp parts with
      ⟨more, longer, rest⟩ | ⟨more, longer, rest⟩
    · rw [eq_nil_of_append_eq ends' plain longer rest] at longer
      simpa using longer.symm
    · rw [eq_nil_of_append_eq ends plain' longer rest] at longer
      simpa using longer
  rw [files] at parts
  exact ⟨cops, String.toList_injective files,
    namePart_injective (List.append_cancel_left parts), lines⟩

/-- In one file no name is mistaken for another. -/
theorem identifier_injective_of_file
    (same : identifier cop.name file name line =
      identifier cop'.name file name' line') :
    cop = cop' ∧ name = name' ∧ line = line' := by
  rcases eq_of_identifier_eq same with ⟨cops, lines, parts⟩
  exact ⟨cops, namePart_injective (List.append_cancel_left parts), lines⟩

end SpecAudit.Finding

import Mathlib.Data.List.TakeWhile
import SpecAudit.Finding.Basic

/-!
# The order of findings

Findings are ordered by file, line, column and check, and findings that agree in
these keep the order in which they were made.  So leaving findings out before
they are put in order or afterwards comes to the same.
-/

namespace SpecAudit

/-! ## Sorting and leaving out -/

section Sorting

variable {α : Type} {left right left' right' : List α}

/-- A list is split in one way into items that satisfy a condition and others. -/
theorem eq_of_append_eq (holds : α → Bool)
    (same : left ++ right = left' ++ right')
    (before : ∀ item ∈ left, holds item = true)
    (after : ∀ item ∈ right, holds item = false)
    (before' : ∀ item ∈ left', holds item = true)
    (after' : ∀ item ∈ right', holds item = false) :
    left = left' ∧ right = right' := by
  have prefixOf {left right : List α}
      (before : ∀ item ∈ left, holds item = true)
      (after : ∀ item ∈ right, holds item = false) :
      (left ++ right).takeWhile holds = left := by
    rw [List.takeWhile_append_of_pos before]
    cases right with
    | nil => simp
    | cons first rest => simp [after first List.mem_cons_self]
  have same' : left = left' := by
    rw [← prefixOf before after, same, prefixOf before' after']
  subst same'
  exact ⟨rfl, List.append_cancel_left same⟩

variable {precedes : α → α → Bool}
variable (trans : ∀ a b c, precedes a b → precedes b c → precedes a c)
variable (total : ∀ a b, precedes a b || precedes b a)

include trans total

theorem mergeSort_cons_split (item : α) (list : List α) :
    ∃ before after,
      (item :: list).mergeSort precedes = before ++ item :: after ∧
        list.mergeSort precedes = before ++ after ∧
        (∀ other ∈ before, precedes item other = false) ∧
        ∀ other ∈ after, precedes item other = true := by
  rcases List.mergeSort_cons trans total item list with
    ⟨before, after, whole, others, earlier⟩
  have sorted := List.pairwise_mergeSort trans total (item :: list)
  rw [whole, List.pairwise_append, List.pairwise_cons] at sorted
  refine ⟨before, after, whole, others, ?_, sorted.2.1.1⟩
  intro other member
  simpa using earlier other member

/-- What is kept of a sorted list is what is kept, sorted. -/
theorem filter_mergeSort (keeps : α → Bool) (list : List α) :
    (list.mergeSort precedes).filter keeps =
      (list.filter keeps).mergeSort precedes := by
  induction list with
  | nil => simp
  | cons item rest induction =>
      rcases mergeSort_cons_split trans total item rest with
        ⟨before, after, whole, others, earlier, later⟩
      rw [others, List.filter_append] at induction
      rw [whole, List.filter_append, List.filter_cons, List.filter_cons]
      split
      · rcases mergeSort_cons_split trans total item (rest.filter keeps) with
          ⟨before', after', whole', others', earlier', later'⟩
        rw [others'] at induction
        -- The item splits both sorted lists at the same place.
        have same : before.filter keeps = before' ∧
            after.filter keeps = after' := by
          apply eq_of_append_eq (fun other => !precedes item other) induction
          · intro other member
            simp [earlier other (List.mem_filter.mp member).1]
          · intro other member
            simp [later other (List.mem_filter.mp member).1]
          · intro other member
            simp [earlier' other member]
          · intro other member
            simp [later' other member]
        rw [whole', same.1, same.2]
      · exact induction

end Sorting

/-! ## The order of findings -/

namespace Finding

/-- How findings compare: by file, line, column and check. -/
def comparePlace : Finding → Finding → Ordering :=
  compareLex (compareOn file) (compareLex (compareOn line)
    (compareLex (compareOn column) (compareOn detector)))

instance : Std.TransCmp comparePlace :=
  inferInstanceAs (Std.TransCmp (compareLex (compareOn file)
    (compareLex (compareOn line)
      (compareLex (compareOn column) (compareOn detector)))))

theorem precedes_eq (left right : Finding) :
    precedes left right = (comparePlace left right).isLE := by
  simp only [precedes, comparePlace, compareLex, compareOn]
  cases compare left.file right.file <;>
    cases compare left.line right.line <;>
    cases compare left.column right.column <;>
    cases compare left.detector right.detector <;> rfl

theorem precedes_trans (first second third : Finding)
    (early : precedes first second) (late : precedes second third) :
    precedes first third := by
  rw [precedes_eq] at *
  exact Std.TransCmp.isLE_trans early late

theorem precedes_total (left right : Finding) :
    precedes left right || precedes right left := by
  have swapped : comparePlace left right = (comparePlace right left).swap :=
    Std.OrientedCmp.eq_swap
  rw [precedes_eq, precedes_eq, swapped]
  cases comparePlace right left <;> rfl

end Finding

end SpecAudit

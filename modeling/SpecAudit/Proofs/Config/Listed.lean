import Mathlib.Data.List.Nodup
import SpecAudit.Config.Change
import SpecAudit.Proofs.Text.Search

/-!
# The items of lists

A text that is set for a list is cut at its commas, and the pieces are trimmed
before they are added.  So whatever text is set, what is added are items that
are not empty, are trimmed and hold no comma, and none is added twice.
-/

namespace SpecAudit.Config

/-- An item of a list: a text that is not empty, is trimmed and holds no
comma. -/
structure IsItem (item : String) : Prop where
  nonempty : item ≠ ""
  trimmed : Text.trimmed item = item
  noComma : ',' ∉ item.toList

instance (item : String) : Decidable (IsItem item) :=
  decidable_of_iff
    (item ≠ "" ∧ Text.trimmed item = item ∧ ',' ∉ item.toList)
    ⟨fun ⟨nonempty, trimmed, noComma⟩ => ⟨nonempty, trimmed, noComma⟩,
      fun isItem => ⟨isItem.nonempty, isItem.trimmed, isItem.noComma⟩⟩

/-- A list of items that are told apart. -/
structure AreItems (items : List String) : Prop where
  distinct : items.Nodup
  isItem : ∀ item ∈ items, IsItem item

instance (items : List String) : Decidable (AreItems items) :=
  decidable_of_iff (items.Nodup ∧ ∀ item ∈ items, IsItem item)
    ⟨fun ⟨distinct, isItem⟩ => ⟨distinct, isItem⟩,
      fun areItems => ⟨areItems.distinct, areItems.isItem⟩⟩

/-! ## Items of a text -/

section Text

variable {text : List Char}

theorem comma_not_mem_of_mem_commaPieces :
    ∀ piece ∈ commaPieces text, ',' ∉ piece := by
  induction text with
  | nil =>
      intro piece member
      rw [List.mem_singleton.mp member]
      exact List.not_mem_nil
  | cons character rest induction =>
      intro piece member
      rw [commaPieces] at member
      split at member
      · rcases List.mem_cons.mp member with rfl | later
        · exact List.not_mem_nil
        · exact induction piece later
      · rename_i other
        have inside : ',' ≠ character := fun same =>
          other (beq_iff_eq.mpr same.symm)
        split at member
        · rename_i first pieces cut
          rw [cut, List.forall_mem_cons] at induction
          rcases List.mem_cons.mp member with rfl | later
          · exact List.not_mem_cons_of_ne_of_not_mem inside induction.1
          · exact induction.2 piece later
        · rw [List.mem_singleton.mp member, List.mem_singleton]
          exact inside

theorem isItem_of_trim {piece : List Char} (noComma : ',' ∉ piece)
    (nonempty : Text.trim piece ≠ []) :
    IsItem (String.ofList (Text.trim piece)) where
  nonempty empty := by
    have characters := congrArg String.toList empty
    rw [String.toList_ofList] at characters
    exact nonempty characters
  trimmed := by
    rw [Text.trimmed, String.toList_ofList, Text.trim_trim]
  noComma member := by
    rw [String.toList_ofList] at member
    exact noComma (Text.mem_of_mem_trim member)

theorem isItem_of_mem_listedItems (text : String) :
    ∀ item ∈ listedItems text, IsItem item := by
  intro item member
  rcases List.mem_map.mp member with ⟨trimmed, kept, rfl⟩
  rcases List.mem_filter.mp kept with ⟨among, nonempty⟩
  rcases List.mem_map.mp among with ⟨piece, cut, rfl⟩
  refine isItem_of_trim (comma_not_mem_of_mem_commaPieces piece cut) ?_
  intro empty
  rw [empty] at nonempty
  cases nonempty

end Text

/-! ## Items that are added -/

section Added

variable {items : List String}

theorem any_map_str_eq_contains (items : List String) (item : String) :
    (items.map Json.str).any (· == .str item) = items.contains item := by
  rw [Bool.eq_iff_iff, List.any_eq_true, List.contains_iff_mem]
  constructor
  · rintro ⟨entry, member, same⟩
    rcases List.mem_map.mp member with ⟨own, among, rfl⟩
    rw [← Json.str.inj (eq_of_beq same)]
    exact among
  · intro member
    exact ⟨.str item, List.mem_map_of_mem member, beq_self_eq_true _⟩

/-- Adding an item keeps the items told apart. -/
theorem exists_addItem {item : String} (areItems : AreItems items)
    (isItem : IsItem item) :
    ∃ after, addItem (items.map .str) item = after.map .str ∧
      AreItems after := by
  unfold addItem
  rw [any_map_str_eq_contains]
  split
  · exact ⟨items, rfl, areItems⟩
  · rename_i absent
    have fresh : item ∉ items := by simpa using absent
    refine ⟨items ++ [item], by simp, ?_, ?_⟩
    · rw [← List.concat_eq_append]
      exact areItems.distinct.concat fresh
    · intro other member
      rcases List.mem_append.mp member with among | last
      · exact areItems.isItem other among
      · rw [List.mem_singleton.mp last]
        exact isItem

theorem exists_foldl_addItem (areItems : AreItems items) {added : List String}
    (isItem : ∀ item ∈ added, IsItem item) :
    ∃ after, added.foldl addItem (items.map .str) = after.map .str ∧
      AreItems after := by
  induction added generalizing items with
  | nil => exact ⟨items, rfl, areItems⟩
  | cons item added induction =>
      rcases List.forall_mem_cons.mp isItem with ⟨first, isItem⟩
      rcases exists_addItem areItems first with ⟨between, step, areItems⟩
      rw [List.foldl_cons, step]
      exact induction areItems isItem

end Added

end SpecAudit.Config

import Mathlib.Data.List.Induction
import SpecAudit.Proofs.Attempt
import SpecAudit.Proofs.Config.Listed

/-!
# What is added to a list

The items that a text adds to a list are those that the list does not hold, each
where the text lists it first.  Of two texts with a comma between them, the one
adds its items after the other, and adding the items of a text again adds
nothing; so it is for every stored value, where those that take no items
answer for both.
-/

namespace SpecAudit.Config

/-- The items that a text adds to a list: its pieces between commas, trimmed,
without empty ones and those that the list holds, each where it occurs first. -/
def freshItems (old : List Json) (text : String) : List String :=
  let pieces := ((text.toList.splitOn ',').map Text.trim).filter (!·.isEmpty)
  (pieces.map String.ofList).eraseDups.filter fun item =>
    !old.contains (.str item)

variable {old : List Json} {items : List String}

/-! ## Items of two texts -/

theorem commaPieces_eq_splitOn (text : List Char) :
    commaPieces text = text.splitOn ',' := by
  induction text with
  | nil => rfl
  | cons character rest induction =>
      have nonempty : rest.splitOnP (· == ',') ≠ [] := List.splitOnP_ne_nil _ _
      unfold List.splitOn at induction ⊢
      rw [commaPieces, List.splitOnP_cons_eq_if_modifyHead, induction]
      split
      · rfl
      · cases cut : rest.splitOnP (· == ',') with
        | nil => exact absurd cut nonempty
        | cons piece pieces => rfl

/-- The items of two texts with a comma between them are those of the one and
then those of the other. -/
theorem listedItems_append (first second : String) :
    listedItems (first ++ "," ++ second) =
      listedItems first ++ listedItems second := by
  have text : (first ++ "," ++ second).toList =
      first.toList ++ ',' :: second.toList := by
    simp [String.toList_append]
  have pieces : commaPieces (first.toList ++ ',' :: second.toList) =
      commaPieces first.toList ++ commaPieces second.toList := by
    simp only [commaPieces_eq_splitOn, List.splitOn]
    exact List.splitOnP_append_cons _ _ (beq_self_eq_true ',')
  simp only [listedItems, text, pieces, List.map_append, List.filter_append]

/-! ## Adding items to a list -/

theorem addItem_of_mem {item : String} (held : .str item ∈ old) :
    addItem old item = old := by
  rw [addItem, if_pos]
  exact List.any_eq_true.mpr ⟨_, held, beq_self_eq_true _⟩

theorem foldl_addItem_of_mem (held : ∀ item ∈ items, .str item ∈ old) :
    items.foldl addItem old = old := by
  induction items with
  | nil => rfl
  | cons item items induction =>
      rcases List.forall_mem_cons.mp held with ⟨first, held⟩
      rw [List.foldl_cons, addItem_of_mem first, induction held]

theorem addItem_of_not_mem {item : String} (fresh : .str item ∉ old) :
    addItem old item = old ++ [.str item] := by
  rw [addItem, if_neg]
  simpa using fresh

theorem mem_append_fresh_iff {item : String} :
    .str item ∈ old ++ (items.eraseDups.filter fun item =>
        !old.contains (.str item)).map .str ↔
      .str item ∈ old ∨ item ∈ items := by
  by_cases held : .str item ∈ old
  · simp [held]
  · simp [held, List.mem_eraseDups]

/-- Adding items appends those that the list does not hold, each where it
occurs first. -/
theorem foldl_addItem_eq (old : List Json) (items : List String) :
    items.foldl addItem old =
      old ++ (items.eraseDups.filter fun item =>
        !old.contains (.str item)).map .str := by
  induction items using List.reverseRecOn with
  | nil => simp
  | append_singleton items item induction =>
      rw [List.foldl_append, induction, List.eraseDups_append,
        List.foldl_cons, List.foldl_nil]
      by_cases listed : item ∈ items
      · have repeated : [item].removeAll items = [] := by
          simp [List.removeAll, listed]
        rw [addItem_of_mem (mem_append_fresh_iff.mpr (.inr listed)), repeated]
        simp
      · have first : ([item].removeAll items).eraseDups = [item] := by
          simp [List.removeAll, listed, List.eraseDups_cons]
        rw [first]
        by_cases held : .str item ∈ old
        · rw [addItem_of_mem (mem_append_fresh_iff.mpr (.inl held))]
          simp [held]
        · rw [addItem_of_not_mem fun member =>
            (mem_append_fresh_iff.mp member).elim held listed]
          simp [held]

theorem mem_foldl_addItem {item : String} (listed : item ∈ items) :
    .str item ∈ items.foldl addItem old := by
  rw [foldl_addItem_eq]
  exact mem_append_fresh_iff.mpr (.inr listed)

/-- Adding the items of a text appends the fresh ones. -/
theorem foldl_addItem_listedItems (old : List Json) (text : String) :
    (listedItems text).foldl addItem old =
      old ++ (freshItems old text).map .str := by
  rw [foldl_addItem_eq, listedItems, commaPieces_eq_splitOn]
  rfl

/-! ## Adding items to a stored value -/

/-- Adding items and then others is adding all of them. -/
theorem addItems_append (stored : Json) (items others : List String) :
    addItems stored (items ++ others) =
      (addItems stored items).bind (addItems · others) := by
  cases stored with
  | arr old => simp [addItems, Except.bind]
  | str text =>
      simp only [addItems, List.all_append]
      by_cases held : (items.all fun item =>
          holdsText item.toList text.toList) = true
      · simp [held, Except.bind]
      · simp [held, Except.bind]
  | obj fields =>
      simp only [addItems, List.all_append]
      by_cases held : items.all (Fields.keys fields).contains = true
      · simp [held, Except.bind]
      · simp [held, Except.bind]
  | _ => cases items <;> simp [addItems, Except.bind]

/-- Adding the same items again adds nothing. -/
theorem addItems_again (stored : Json) (items : List String) :
    (addItems stored items).bind (addItems · items) =
      addItems stored items := by
  rw [← addItems_append]
  cases stored with
  | arr old =>
      simp only [addItems, List.foldl_append]
      rw [foldl_addItem_of_mem fun item listed => mem_foldl_addItem listed]
  | _ => simp [addItems]

end SpecAudit.Config

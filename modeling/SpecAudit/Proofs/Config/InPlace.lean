import SpecAudit.Proofs.Config.Added
import SpecAudit.Proofs.Config.Change
import SpecAudit.Proofs.Json.Fields

/-!
# Changing a configuration in place

A key is set in the configuration itself, step by step: a list is put where a
list key has no value, and then the items of the text are added to the value one
after the other, each after it has been looked for.  Looking for an item and
adding it can both fail, but only for a value that is no list, and such a value
takes no item that could be left behind.  So a change that fails leaves the
configuration as it was, and one that succeeds makes of it what is made at once.
-/

namespace SpecAudit.Config

/-! ## Steps -/

namespace Edit

variable {α β : Type}

/-- What is left by a change that is made at once: the configuration after it,
or the one before it if the change fails. -/
def atOnce (before : Fields) : Except Fault Fields → Except Fault Unit × Fields
  | .ok after => (.ok (), after)
  | .error fault => (.error fault, before)

theorem outcome_bind_of_ok {edit : Edit α} {next : α → Edit β} {value : α}
    {before after : Fields} (first : edit.outcome before = (.ok value, after)) :
    (edit >>= next).outcome before = (next value).outcome after := by
  change
    ExceptT.bindCont next (edit.outcome before).1 (edit.outcome before).2 = _
  rw [first]
  rfl

theorem outcome_bind_of_error {edit : Edit α} {next : α → Edit β}
    {fault : Fault} {before after : Fields}
    (first : edit.outcome before = (.error fault, after)) :
    (edit >>= next).outcome before = (.error fault, after) := by
  change
    ExceptT.bindCont next (edit.outcome before).1 (edit.outcome before).2 = _
  rw [first]
  rfl

end Edit

variable {name text : String} {items : List String} {stored value : Json}
variable {fields : Fields}

/-! ## Items in place -/

open Edit

theorem addItems_nil (stored : Json) : addItems stored [] = .ok stored := by
  cases stored <;> rfl

/-- A value that items have been added to is a list, or is as it was. -/
theorem eq_of_addItems_eq_ok (added : addItems stored items = .ok value) :
    (∃ old, value = .arr old) ∨ value = stored := by
  cases stored with
  | arr old =>
      cases added
      exact .inl ⟨_, rfl⟩
  | _ =>
      unfold addItems at added
      dsimp only at added
      split at added <;> cases added
      exact .inr rfl

/-- An item is looked for in a value and, if it is not there, added to it. -/
theorem addItems_singleton (stored : Json) (item : String) :
    addItems stored [item] =
      (holdsItem stored item).bind fun held =>
        if held then .ok stored else withItem stored item := by
  cases stored with
  | arr old =>
      simp only [addItems, holdsItem, withItem, List.foldl_cons, List.foldl_nil,
        addItem, Except.bind]
      split <;> rfl
  | _ => simp [addItems, holdsItem, withItem, Except.bind]

theorem outcome_addInPlace (item : String)
    (found : fields.get? name = some stored) :
    (addInPlace name item).outcome fields =
      atOnce fields ((addItems stored [item]).map (fields.put name ·)) := by
  have read : (get : Edit Fields).outcome fields = (.ok fields, fields) := rfl
  have own : (fields.get? name).getD .null = stored := by
    rw [found]
    rfl
  have lifted {α : Type} (result : Except Fault α) :
      (Edit.lift result).outcome fields = (result, fields) := rfl
  unfold addInPlace
  rw [outcome_bind_of_ok read, addItems_singleton]
  dsimp only
  rw [own]
  cases looked : holdsItem stored item with
  | error fault => rfl
  | ok held =>
      rw [outcome_bind_of_ok (lifted (.ok held))]
      cases held with
      | true =>
          simp only [Except.bind, if_true, Except.map,
            Fields.put_of_get?_eq_some found]
          rfl
      | false =>
          cases withItem stored item <;> rfl

/-- Items are added one after the other or, if that fails, none of them is. -/
theorem outcome_forM_addInPlace (found : fields.get? name = some stored) :
    (forM items (addInPlace name)).outcome fields =
      atOnce fields ((addItems stored items).map (fields.put name ·)) := by
  induction items generalizing fields stored with
  | nil =>
      rw [addItems_nil]
      simp only [Except.map, Fields.put_of_get?_eq_some found]
      rfl
  | cons item items induction =>
      have whole : addItems stored (item :: items) =
          (addItems stored [item]).bind (addItems · items) :=
        addItems_append stored [item] items
      have first := outcome_addInPlace item found
      rw [List.forM_cons, whole]
      cases added : addItems stored [item] with
      | error fault =>
          rw [added] at first
          exact outcome_bind_of_error first
      | ok value =>
          rw [added] at first
          rw [outcome_bind_of_ok first,
            induction (Fields.get?_put_same name value fields)]
          change _ = atOnce fields ((addItems value items).map _)
          simp only [Fields.put_put]
          cases later : addItems value items with
          | ok last => rfl
          | error fault =>
              -- A list takes every item, so no item has been added before.
              have same : value = stored := by
                rcases eq_of_addItems_eq_ok added with ⟨old, rfl⟩ | same
                · cases later
                · exact same
              rw [same, Fields.put_of_get?_eq_some found]

/-! ## Keys in place -/

/-- A key that is set in place, step by step, is set as it is at once, and a
change that fails leaves the configuration as it was. -/
theorem outcome_setInPlace (name text : String) (fields : Fields) :
    (setInPlace name text).outcome fields =
      atOnce fields (set name text fields) := by
  unfold setInPlace set
  cases known : key? name with
  | none => rfl
  | some key =>
      rcases of_key?_eq_some known with ⟨-, rfl⟩
      dsimp only
      unfold newValue
      cases key.type with
      | truth =>
          dsimp only
          cases truthOf? text <;> rfl
      | choice choices =>
          dsimp only
          split <;> rfl
      | list =>
          dsimp only
          have opened (fields : Fields) : (modify fun fields =>
              if fields.has key.name then fields
              else fields.put key.name (.arr []) : Edit Unit).outcome fields =
                (.ok (), if fields.has key.name then fields
                  else fields.put key.name (.arr [])) := rfl
          rw [outcome_bind_of_ok (opened fields), Fields.has]
          cases found : fields.get? key.name with
          | some stored => exact outcome_forM_addInPlace found
          | none =>
              -- An empty list is put first, and a list takes every item.
              have empty : (fields.put key.name (.arr [])).get? key.name =
                  some (.arr []) := Fields.get?_put_same _ _ _
              refine (outcome_forM_addInPlace empty).trans ?_
              simp only [Fields.put_put]
              rfl

theorem outcome_unsetInPlace (name : String) (fields : Fields) :
    (unsetInPlace name).outcome fields = atOnce fields (unset name fields) := by
  unfold unsetInPlace unset
  cases key? name <;> rfl

/-! ## The rest of a configuration -/

/-- What a change of one key leaves: the other keys with their values, in their
order, and the key in its place, or behind the others if it was not there. -/
structure KeepsOthers (name : String) (before after : Fields) : Prop where
  others : after.filter (·.1 != name) = before.filter (·.1 != name)
  keys : after.keys =
    if before.has name then before.keys else before.keys ++ [name]

theorem keepsOthers_put (name : String) (value : Json) (fields : Fields) :
    KeepsOthers name fields (fields.put name value) where
  others := Fields.filter_put fields name value
  keys := by
    rw [Fields.has]
    cases found : fields.get? name with
    | some old => exact keys_put found value
    | none => simp [Fields.put_of_get?_eq_none found, Fields.keys]

theorem keepsOthers_of_set {after : Fields}
    (done : set name text fields = .ok after) :
    KeepsOthers name fields after := by
  unfold set at done
  split at done
  · cases done
  · rcases exists_of_map_eq_ok done with ⟨value, -, rfl⟩
    exact keepsOthers_put name value fields

theorem keepsOthers_of_unset {after : Fields}
    (done : unset name fields = .ok after) :
    KeepsOthers name fields after := by
  unfold unset at done
  split at done
  · cases done
  · rename_i key _
    cases done
    exact keepsOthers_put name key.default fields

/-! ## Setting a key more than once -/

theorem newValue_list {key : Key} (isList : key.type = .list)
    (stored : Option Json) (text : String) :
    newValue key stored text =
      addItems (stored.getD (.arr [])) (listedItems text) := by
  rw [newValue, isList]

section Key

variable {key : Key} (known : key? name = some key)

include known

theorem set_eq (text : String) (fields : Fields) :
    set name text fields =
      (newValue key (fields.get? name) text).map (fields.put name ·) := by
  rw [set, known]

/-- Setting a key once more starts from the value that it has been given. -/
theorem set_bind_set (text later : String) (fields : Fields) :
    (set name text fields).bind (set name later) =
      ((newValue key (fields.get? name) text).bind fun value =>
        newValue key (some value) later).map (fields.put name ·) := by
  rw [set_eq known]
  cases newValue key (fields.get? name) text with
  | error fault => rfl
  | ok value =>
      simp only [Except.map, Except.bind, set_eq known, Fields.get?_put_same,
        Fields.put_put]

variable (isList : key.type = .list)

include isList

theorem set_append (first second : String) (fields : Fields) :
    set name (first ++ "," ++ second) fields =
      (set name first fields).bind (set name second) := by
  rw [set_bind_set known, set_eq known]
  simp only [newValue_list isList, listedItems_append, addItems_append,
    Option.getD_some]

theorem set_of_list {old : List Json}
    (stored : (fields.get? name).getD (.arr []) = .arr old) (text : String) :
    set name text fields =
      .ok (fields.put name (.arr (old ++ (freshItems old text).map .str))) := by
  rw [set_eq known, newValue_list isList, stored, addItems,
    foldl_addItem_listedItems]
  rfl

end Key

theorem newValue_again {key : Key} {stored : Option Json}
    (made : newValue key stored text = .ok value) :
    newValue key (some value) text = .ok value := by
  unfold newValue at made ⊢
  cases type : key.type with
  | truth => simpa [type] using made
  | choice choices => simpa [type] using made
  | list =>
      simp only [type, Option.getD_some] at made ⊢
      have again := addItems_again (stored.getD (.arr [])) (listedItems text)
      rw [made] at again
      exact again

theorem set_again (name text : String) (fields : Fields) :
    (set name text fields).bind (set name text) = set name text fields := by
  cases known : key? name with
  | none => simp [set, known, Except.bind]
  | some key =>
      rw [set_bind_set known, set_eq known]
      cases made : newValue key (fields.get? name) text with
      | error fault => rfl
      | ok value => simp only [Except.bind, newValue_again made]

/--
A key that is set or unset in place changes as it does at once, and a change
that fails, for whatever reason, leaves the configuration as it was.  A change
that succeeds leaves all other keys.  Setting two texts with a comma between
them for a list is setting the one and then the other; a list key that has no
value, or a list, keeps its items and takes those of the text that it does not
hold, each where it occurs first.  Setting a text twice is setting it once.
-/
theorem setInPlace_laws (name : String) (fields : Fields) :
    (∀ text, (setInPlace name text).outcome fields =
      atOnce fields (set name text fields)) ∧
    (unsetInPlace name).outcome fields = atOnce fields (unset name fields) ∧
    (∀ text after, set name text fields = .ok after →
      KeepsOthers name fields after) ∧
    (∀ after, unset name fields = .ok after → KeepsOthers name fields after) ∧
    (∀ key, key? name = some key → key.type = .list →
      (∀ first second, set name (first ++ "," ++ second) fields =
        (set name first fields).bind (set name second)) ∧
      ∀ old, (fields.get? name = none ∧ old = [] ∨
          fields.get? name = some (.arr old)) →
        ∀ text, set name text fields =
          .ok (fields.put name
            (.arr (old ++ (freshItems old text).map .str)))) ∧
    ∀ text, (set name text fields).bind (set name text) =
      set name text fields := by
  refine ⟨fun text => outcome_setInPlace name text fields,
    outcome_unsetInPlace name fields, fun _ _ => keepsOthers_of_set,
    fun _ => keepsOthers_of_unset, ?_, fun text => set_again name text fields⟩
  intro key known isList
  refine ⟨fun first second => set_append known isList first second fields, ?_⟩
  rintro old stored text
  refine set_of_list known isList ?_ text
  rcases stored with ⟨absent, rfl⟩ | found
  · rw [absent]
    rfl
  · rw [found]
    rfl

/-- Items are added to a list between two other keys.  A text in the place of the
list, which holds the first of two items and not the second, is left alone. -/
theorem setInPlace_laws_exclude :
    let fields (stored : Json) : Fields :=
      [("version", .int 2), ("exclude", stored), ("owner", .str "core")]
    (setInPlace "exclude" "b, a,,b ,c").outcome (fields (.texts ["a"])) =
        (.ok (), fields (.texts ["a", "b", "c"])) ∧
      (setInPlace "exclude" "lib,tmp").outcome (fields (.str "lib")) =
        (.error .notExtendable, fields (.str "lib")) := by
  intro fields
  have known : key? "exclude" = some ⟨"exclude", .list, .arr [],
      "Path patterns to exclude from scanning"⟩ := rfl
  have fresh : freshItems [.str "a"] "b, a,,b ,c" = ["b", "c"] := by
    decide +kernel
  rcases setInPlace_laws "exclude" (fields (.texts ["a"])) with
    ⟨inPlace, -, -, -, listed, -⟩
  rcases setInPlace_laws "exclude" (fields (.str "lib")) with ⟨inPlace', -⟩
  constructor
  · rw [inPlace, (listed _ known rfl).2 [.str "a"] (.inr rfl), fresh]
    rfl
  · rw [inPlace']
    rfl

end SpecAudit.Config

import SpecAudit.Proofs.Config.Saved

/-!
# Changing one key

Setting a key puts one value, which is of the type of the key and made of its
old value and the text; unsetting a key puts its default.  So a configuration
that can be loaded stays one, keeps its names in their order, and keeps the
values of all other keys.
-/

namespace SpecAudit.Config

/-! ## Values that are put -/

section Put

variable {fields : Fields} {key : Key} {value : Json}

/-- Putting a value under a name that is there keeps the names as they are. -/
theorem keys_put {name : String} {old : Json}
    (found : fields.get? name = some old) (value : Json) :
    (fields.put name value).keys = fields.keys := by
  induction fields with
  | nil => cases found
  | cons field fields induction =>
      rcases field with ⟨first, inner⟩
      rw [Fields.get?] at found
      rw [Fields.put]
      split
      · rfl
      · rename_i other
        rw [if_neg other] at found
        exact congrArg (first :: ·) (induction found)

/-- What holds of a configuration in which only one key has changed. -/
structure Changed (name : String) (value : Json) (before after : Fields) :
    Prop where
  value : after.get? name = some value
  others : ∀ other, other ≠ name → after.get? other = before.get? other
  keys : after.keys = before.keys

theorem IsLoadable.put (loadable : IsLoadable fields) (member : key ∈ schema)
    (admitted : key.type.admits value = true) (readable : value.Readable) :
    IsLoadable (fields.put key.name value) where
  readable := loadable.readable.put key.name readable
  hasValue _ member' :=
    hasValue_put member admitted member' fun _ => loadable.hasValue _ member'

theorem IsLoadable.changed (loadable : IsLoadable fields)
    (member : key ∈ schema) (value : Json) :
    Changed key.name value fields (fields.put key.name value) where
  value := Fields.get?_put_same _ _ _
  others _ different := Fields.get?_put_other different _ _
  keys := by
    rcases loadable.hasValue key member with ⟨old, found, -⟩
    exact keys_put found value

theorem readable_of_get? {name : String} (readable : (Json.obj fields).Readable)
    (found : fields.get? name = some value) : value.Readable := by
  cases readable with
  | obj _ distinct inner =>
      induction fields with
      | nil => cases found
      | cons field fields induction =>
          rcases field with ⟨first, old⟩
          rcases List.forall_mem_cons.mp inner with ⟨readable, inner⟩
          rw [Fields.get?] at found
          split at found
          · cases found
            exact readable
          · exact induction found (List.nodup_cons.mp distinct).2 inner

end Put

/-! ## Values that are made of texts -/

section Made

variable {key : Key} {stored value : Json} {text : String}

theorem readable_addItem {items : List Json} (item : String)
    (readable : ∀ item ∈ items, item.Readable) :
    ∀ other ∈ addItem items item, other.Readable := by
  intro other member
  unfold addItem at member
  split at member
  · exact readable other member
  · rcases List.mem_append.mp member with among | last
    · exact readable other among
    · rw [List.mem_singleton.mp last]
      exact .str item

theorem readable_foldl_addItem {items : List Json} (added : List String)
    (readable : ∀ item ∈ items, item.Readable) :
    ∀ item ∈ added.foldl addItem items, item.Readable := by
  induction added generalizing items with
  | nil => exact readable
  | cons first added induction =>
      exact induction (readable_addItem first readable)

/-- The value that a text makes is of the type of the key, and a text can hold
it if a text can hold the old value. -/
theorem admits_newValue (admitted : key.type.admits stored = true)
    (readable : stored.Readable)
    (made : newValue key (some stored) text = .ok value) :
    key.type.admits value = true ∧ value.Readable := by
  unfold newValue at made
  split at made
  · rename_i type
    split at made
    · cases made
      rw [type]
      exact ⟨rfl, .bool _⟩
    · cases made
  · rename_i type
    rw [type] at admitted ⊢
    cases readable with
    | arr items inner =>
        cases made
        exact ⟨rfl, .arr _ (readable_foldl_addItem _ inner)⟩
    | _ => cases admitted
  · rename_i type
    split at made
    · cases made
      rw [type]
      exact ⟨rfl, .str text⟩
    · cases made

end Made

/-! ## Setting and unsetting -/

section Ask

variable {name text : String} {before after : Fields}

/-- Setting a key that succeeds puts the value that the text makes of the old
one, and nothing else. -/
theorem exists_of_set (loadable : IsLoadable before)
    (done : set name text before = .ok after) :
    ∃ key value, key? name = some key ∧
      newValue key (before.get? name) text = .ok value ∧
      IsLoadable after ∧ Changed name value before after := by
  unfold set at done
  split at done
  · cases done
  · rename_i key found
    rcases of_key?_eq_some found with ⟨member, rfl⟩
    rcases loadable.hasValue key member with ⟨stored, get, admitted⟩
    rcases exists_of_map_eq_ok done with ⟨value, made, rfl⟩
    have readable := readable_of_get? loadable.readable get
    rw [get] at made ⊢
    rcases admits_newValue admitted readable made with ⟨admits, readable⟩
    exact ⟨key, value, found, made, loadable.put member admits readable,
      loadable.changed member value⟩

/-- Unsetting a key that succeeds puts the default of the key, and nothing
else. -/
theorem exists_of_unset (loadable : IsLoadable before)
    (done : unset name before = .ok after) :
    ∃ key, key? name = some key ∧ IsLoadable after ∧
      Changed name key.default before after := by
  unfold unset at done
  split at done
  · cases done
  · rename_i key found
    rcases of_key?_eq_some found with ⟨member, rfl⟩
    cases done
    have admits := admits_default key member
    have readable := readable_default member
    exact ⟨key, found, loadable.put member admits readable,
      loadable.changed member key.default⟩

end Ask

end SpecAudit.Config

import Mathlib.Data.List.Nodup
import SpecAudit.Config.Change
import SpecAudit.Config.File
import SpecAudit.Proofs.Json.Reading

/-!
# Saving and loading a configuration

Whatever bytes a configuration is loaded from, every key has a value of its
type, and everything in it can be written and read back.  Such a configuration
is loaded again as it was saved: repairing it changes nothing.  Setting or
unsetting a key keeps it so, and changes no other key.
-/

namespace SpecAudit.Config

/-- Whether a key has a value of its type. -/
def Key.HasValue (key : Key) (fields : Fields) : Prop :=
  ∃ value, fields.get? key.name = some value ∧ key.type.admits value = true

/-- Whether a configuration is one that can be loaded: a text can hold it, and
every key has a value of its type. -/
structure IsLoadable (fields : Fields) : Prop where
  readable : (Json.obj fields).Readable
  hasValue : ∀ key ∈ schema, key.HasValue fields

/-! ## The keys -/

section Keys

variable {key other : Key}

theorem eq_of_name_eq (member : key ∈ schema) (member' : other ∈ schema)
    (same : key.name = other.name) : key = other := by
  have distinct : (schema.map Key.name).Nodup := by decide
  exact List.inj_on_of_nodup_map distinct member member' same

theorem of_key?_eq_some {name : String} (found : key? name = some key) :
    key ∈ schema ∧ key.name = name := by
  constructor
  · exact List.mem_of_find?_eq_some found
  · simpa using List.find?_some found

theorem admits_default : ∀ key ∈ schema, key.type.admits key.default = true := by
  decide

theorem readable_texts (texts : List String) : (Json.texts texts).Readable := by
  constructor
  intro item member
  rcases List.mem_map.mp member with ⟨text, -, rfl⟩
  exact .str text

theorem readable_default (member : key ∈ schema) : key.default.Readable := by
  simp only [schema, List.mem_cons, List.not_mem_nil, or_false] at member
  rcases member with rfl | rfl | rfl | rfl | rfl | rfl | rfl
  · exact .bool true
  · exact readable_texts defaultCovered
  · exact readable_texts defaultExcludedMethods
  · exact readable_texts defaultExcludedStarts
  · exact readable_texts []
  · exact readable_texts []
  · exact .str Spec.Structure.byTree.name

end Keys

/-! ## Repairing -/

section Repair

variable {fields : Fields} {key other : Key}

theorem repairKey_of_hasValue (hasValue : key.HasValue fields) :
    repairKey fields key = fields := by
  rcases hasValue with ⟨value, found, admitted⟩
  rw [repairKey, found]
  exact if_pos admitted

/-- A key is repaired by nothing or by its default. -/
theorem repairKey_cases (fields : Fields) (key : Key) :
    (key.HasValue fields ∧ repairKey fields key = fields) ∨
      repairKey fields key = fields.put key.name key.default := by
  unfold repairKey
  split
  · split
    · exact .inl ⟨⟨_, ‹_›, ‹_›⟩, rfl⟩
    · exact .inr rfl
  · exact .inr rfl

theorem hasValue_put {value : Json} (member : key ∈ schema)
    (admitted : key.type.admits value = true) (member' : other ∈ schema)
    (hasValue : other ≠ key → other.HasValue fields) :
    other.HasValue (fields.put key.name value) := by
  by_cases same : other = key
  · subst same
    exact ⟨value, Fields.get?_put_same _ _ _, admitted⟩
  · have different : other.name ≠ key.name :=
      fun names => same (eq_of_name_eq member' member names)
    rcases hasValue same with ⟨old, found, admitted⟩
    refine ⟨old, ?_, admitted⟩
    rw [Fields.get?_put_other different, found]

theorem hasValue_repairKey (member : key ∈ schema) (member' : other ∈ schema)
    (hasValue : other ≠ key → other.HasValue fields) :
    other.HasValue (repairKey fields key) := by
  rcases repairKey_cases fields key with ⟨own, unchanged⟩ | changed
  · rw [unchanged]
    by_cases same : other = key
    · rw [same]
      exact own
    · exact hasValue same
  · rw [changed]
    exact hasValue_put member (admits_default key member) member' hasValue

/-- After some keys are repaired they have values, and so do those that had. -/
theorem hasValue_foldl {keys : List Key} (listed : ∀ key ∈ keys, key ∈ schema)
    (member : other ∈ schema) (hasValue : other ∉ keys → other.HasValue fields) :
    other.HasValue (keys.foldl repairKey fields) := by
  induction keys generalizing fields with
  | nil => exact hasValue List.not_mem_nil
  | cons key keys induction =>
      rcases List.forall_mem_cons.mp listed with ⟨first, listed⟩
      apply induction listed
      intro later
      apply hasValue_repairKey first member
      intro different
      apply hasValue
      rw [List.mem_cons, not_or]
      exact ⟨different, later⟩

theorem hasValue_repaired (member : key ∈ schema) : key.HasValue (repaired fields) :=
  hasValue_foldl (fun _ listed => listed) member
    (fun absent => absurd member absent)

theorem readable_foldl {keys : List Key} (listed : ∀ key ∈ keys, key ∈ schema)
    (readable : (Json.obj fields).Readable) :
    (Json.obj (keys.foldl repairKey fields)).Readable := by
  induction keys generalizing fields with
  | nil => exact readable
  | cons key keys induction =>
      rcases List.forall_mem_cons.mp listed with ⟨first, listed⟩
      apply induction listed
      rcases repairKey_cases fields key with ⟨-, unchanged⟩ | changed
      · rw [unchanged]
        exact readable
      · rw [changed]
        exact readable.put key.name (readable_default first)

/-- Whatever is repaired can be loaded. -/
theorem isLoadable_repaired (readable : (Json.obj fields).Readable) :
    IsLoadable (repaired fields) where
  readable := readable_foldl (fun _ listed => listed) readable
  hasValue _ member := hasValue_repaired member

theorem foldl_repairKey {keys : List Key}
    (hasValue : ∀ key ∈ keys, key.HasValue fields) :
    keys.foldl repairKey fields = fields := by
  induction keys with
  | nil => rfl
  | cons key keys induction =>
      rcases List.forall_mem_cons.mp hasValue with ⟨first, others⟩
      rw [List.foldl_cons, repairKey_of_hasValue first, induction others]

end Repair

/-! ## Loading -/

section Load

variable {fields : Fields}

theorem readable_of_fieldsOf {content : ByteArray}
    (found : fieldsOf content = .ok fields) : (Json.obj fields).Readable := by
  have empty : (Json.obj []).Readable := .obj [] List.nodup_nil (by simp)
  unfold fieldsOf at found
  split at found
  · cases found
    exact empty
  · split at found
    · cases found
      exact Json.readable_of_read ‹_›
    · cases found
      exact empty
    · cases found
      exact empty
    · cases found

/-- What is loaded, from whatever content, can be loaded again. -/
theorem isLoadable_of_load {content? : Option ByteArray}
    (loaded : load content? = .ok fields) : IsLoadable fields := by
  unfold load at loaded
  split at loaded
  · cases loaded
    exact isLoadable_repaired (.obj [] List.nodup_nil (by simp))
  · rcases exists_of_map_eq_ok loaded with ⟨own, found, rfl⟩
    exact isLoadable_repaired (readable_of_fieldsOf found)

/-- What is saved is loaded, and then repaired. -/
theorem load_saved_eq_repaired (readable : (Json.obj fields).Readable) :
    load (some (saved fields).toUTF8) = .ok (repaired fields) := by
  have decoded : String.fromUTF8? (saved fields).toUTF8 = some (saved fields) :=
    dif_pos (saved fields).isValidUTF8
  have found : fieldsOf (saved fields).toUTF8 = .ok fields := by
    unfold fieldsOf
    rw [decoded]
    dsimp only
    rw [saved, Json.read_indented readable]
  rw [load, found]
  rfl

/-- A configuration is loaded as it was saved. -/
theorem load_saved (loadable : IsLoadable fields) :
    load (some (saved fields).toUTF8) = .ok fields := by
  rw [load_saved_eq_repaired loadable.readable]
  exact congrArg Except.ok (foldl_repairKey loadable.hasValue)

end Load

end SpecAudit.Config

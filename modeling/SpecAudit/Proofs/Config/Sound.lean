import SpecAudit.Config.Store
import SpecAudit.Proofs.Config.Repair
import SpecAudit.Proofs.Config.Settings

/-!
# What can be in a configuration

A configuration that is made by actions alone, beside a file that is written
by them alone, holds values of its keys and nothing else.  A value that is
taken from a text, a default and a value that comes back from the file are all
such, so every action keeps it so, also one that fails.  The settings of a
configuration like this can be taken and used for any name.
-/

namespace SpecAudit.Config

/-- Whether a value is one that a key of this type is meant to have: the items
of a list are told apart, and a text is one of the choices. -/
def ValueType.Holds : ValueType → Json → Prop
  | .truth, value => ∃ truth, value = .bool truth
  | .list, value => ∃ items, value = .texts items ∧ AreItems items
  | .choice choices, value => ∃ text ∈ choices, value = .str text

/-- Whether a configuration has values of its keys and nothing else. -/
structure IsSound (fields : Fields) : Prop where
  distinct : fields.keys.Nodup
  holds : ∀ field ∈ fields,
    ∃ key, key? field.1 = some key ∧ key.type.Holds field.2

variable {fields : Fields} {key : Key} {value : Json}

/-! ## Values of a type -/

section Values

variable {type : ValueType}

theorem ValueType.Holds.readable (holds : type.Holds value) :
    value.Readable := by
  cases type with
  | truth =>
      rcases holds with ⟨truth, rfl⟩
      exact .bool truth
  | list =>
      rcases holds with ⟨items, rfl, -⟩
      exact readable_texts items
  | choice choices =>
      rcases holds with ⟨text, -, rfl⟩
      exact .str text

theorem holds_default (member : key ∈ schema) : key.type.Holds key.default := by
  simp only [schema, List.mem_cons, List.not_mem_nil, or_false] at member
  rcases member with rfl | rfl | rfl | rfl | rfl | rfl | rfl
  · exact ⟨true, rfl⟩
  · exact ⟨defaultCovered, rfl, by decide⟩
  · exact ⟨defaultExcludedMethods, rfl, by decide⟩
  · exact ⟨defaultExcludedStarts, rfl, by decide⟩
  · exact ⟨[], rfl, by decide⟩
  · exact ⟨[], rfl, by decide⟩
  · exact ⟨_, by decide, rfl⟩

theorem key?_name (member : key ∈ schema) : key? key.name = some key := by
  cases found : key? key.name with
  | none =>
      have never := List.find?_eq_none.mp found key member
      exact absurd (beq_self_eq_true key.name) never
  | some other =>
      rcases of_key?_eq_some found with ⟨member', same⟩
      rw [eq_of_name_eq member' member same]

/-- A text makes a value of the type of the key, whether the key has a value
yet or not. -/
theorem holds_newValue {stored : Option Json} {text : String}
    (old : ∀ value, stored = some value → key.type.Holds value)
    (made : newValue key stored text = .ok value) : key.type.Holds value := by
  unfold newValue at made
  split at made
  · rename_i type
    split at made
    · cases made
      rw [type]
      exact ⟨_, rfl⟩
    · cases made
  · rename_i type
    have before : ∃ items, stored.getD (.arr []) = .texts items ∧
        AreItems items := by
      cases stored with
      | none => exact ⟨[], rfl, by decide⟩
      | some value =>
          have holds := old value rfl
          rw [type] at holds
          exact holds
    rcases before with ⟨items, stored, areItems⟩
    rw [stored] at made
    cases made
    rw [type]
    rcases exists_foldl_addItem areItems (isItem_of_mem_listedItems text)
      with ⟨after, added, areItems⟩
    exact ⟨after, congrArg Json.arr added, areItems⟩
  · rename_i type
    split at made
    · rename_i chosen
      cases made
      rw [type]
      exact ⟨text, by simpa using chosen, rfl⟩
    · cases made

end Values

/-! ## Configurations -/

namespace IsSound

theorem nil : IsSound [] :=
  ⟨List.nodup_nil, by simp⟩

theorem readable (sound : IsSound fields) : (Json.obj fields).Readable := by
  refine .obj fields sound.distinct fun field listed => ?_
  rcases sound.holds field listed with ⟨key, -, holds⟩
  exact holds.readable

theorem put (sound : IsSound fields) {name : String}
    (named : key? name = some key) (holds : key.type.Holds value) :
    IsSound (fields.put name value) where
  distinct := Json.nodup_keys_put sound.distinct
  holds field listed := by
    rcases Json.mem_put listed with rfl | old
    · exact ⟨key, named, holds⟩
    · exact sound.holds field old

theorem of_get? (sound : IsSound fields) {name : String}
    (named : key? name = some key) (found : fields.get? name = some value) :
    key.type.Holds value := by
  rcases sound.holds _ (Fields.mem_of_get?_eq_some found)
    with ⟨own, named', holds⟩
  rw [named] at named'
  cases named'
  exact holds

theorem foldl_repairKey (sound : IsSound fields) {keys : List Key}
    (listed : ∀ key ∈ keys, key? key.name = some key) :
    IsSound (keys.foldl repairKey fields) := by
  induction keys generalizing fields with
  | nil => exact sound
  | cons key keys induction =>
      rcases List.forall_mem_cons.mp listed with ⟨first, listed⟩
      apply induction _ listed
      rcases repairKey_cases fields key with ⟨-, unchanged⟩ | changed
      · rw [unchanged]
        exact sound
      · rw [changed]
        exact sound.put first (holds_default (of_key?_eq_some first).1)

theorem repaired (sound : IsSound fields) :
    IsSound (Config.repaired fields) :=
  sound.foldl_repairKey fun _ member => key?_name member

theorem defaults : IsSound Config.defaults := by
  have filled : Config.defaults = Config.repaired [] := by
    rfl
  rw [filled]
  exact IsSound.nil.repaired

theorem set (sound : IsSound fields) {name text : String} {after : Fields}
    (done : Config.set name text fields = .ok after) : IsSound after := by
  unfold Config.set at done
  split at done
  · cases done
  · rename_i key named
    rcases exists_of_map_eq_ok done with ⟨value, made, rfl⟩
    exact sound.put named
      (holds_newValue (fun _ found => sound.of_get? named found) made)

theorem unset (sound : IsSound fields) {name : String} {after : Fields}
    (done : Config.unset name fields = .ok after) : IsSound after := by
  unfold Config.unset at done
  split at done
  · cases done
  · rename_i key named
    cases done
    exact sound.put named (holds_default (of_key?_eq_some named).1)

end IsSound

/-! ## A configuration and its file -/

namespace Store

/-- Whether a configuration has values of its keys and nothing else, and so
has the one that the file was written from. -/
structure IsSound (store : Store) : Prop where
  fields : Config.IsSound store.fields
  content : ∀ content, store.content? = some content →
    ∃ own, Config.IsSound own ∧ content = (saved own).toUTF8

variable {store next : Store} {action : Action}

namespace IsSound

theorem load (sound : store.IsSound) {fields : Fields}
    (loaded : Config.load store.content? = .ok fields) :
    Config.IsSound fields := by
  cases file : store.content? with
  | none =>
      rw [file] at loaded
      cases loaded
      exact Config.IsSound.nil.repaired
  | some content =>
      rcases sound.content content file with ⟨own, soundOwn, rfl⟩
      rw [file, load_saved_eq_repaired soundOwn.readable] at loaded
      cases loaded
      exact soundOwn.repaired

theorem withFields (sound : store.IsSound) {fields : Fields}
    (soundFields : Config.IsSound fields) : (store.withFields fields).IsSound :=
  ⟨soundFields, sound.content⟩

/-- An action that succeeds keeps a configuration and its file sound. -/
theorem perform (sound : store.IsSound)
    (done : store.perform action = .ok next) : next.IsSound := by
  cases action with
  | reset =>
      cases done
      exact sound.withFields .defaults
  | load =>
      rcases exists_of_map_eq_ok (eq_ok_of_mapError_eq_ok done)
        with ⟨fields, loaded, rfl⟩
      exact sound.withFields (sound.load loaded)
  | set name text =>
      rcases exists_of_map_eq_ok (eq_ok_of_mapError_eq_ok done)
        with ⟨fields, changed, rfl⟩
      exact sound.withFields (sound.fields.set changed)
  | unset name =>
      rcases exists_of_map_eq_ok (eq_ok_of_mapError_eq_ok done)
        with ⟨fields, changed, rfl⟩
      exact sound.withFields (sound.fields.unset changed)
  | save =>
      rcases exists_of_map_eq_ok (eq_ok_of_mapError_eq_ok done)
        with ⟨text, written, rfl⟩
      rw [(save_eq_ok written).1]
      refine ⟨sound.fields, fun content same => ?_⟩
      cases same
      exact ⟨store.fields, sound.fields, rfl⟩

theorem attempt (sound : store.IsSound) (action : Action) :
    (store.attempt action).IsSound := by
  unfold Store.attempt
  split
  · exact sound.perform ‹_›
  · exact sound

theorem run (sound : store.IsSound) (actions : List Action) :
    (store.run actions).IsSound := by
  induction actions generalizing store with
  | nil => exact sound
  | cons action actions induction => exact induction (sound.attempt action)

end IsSound

end Store

/-! ## Settings -/

/-- Whether settings are what a configuration says: they are taken from it, they
find blocks the way that it names, and for every name they tell whether it is
left out or checked as the lists of the configuration do. -/
structure Settings.Follows (settings : Settings) (fields : Fields) : Prop where
  taken : ofConfig fields = .ok settings
  specStructure :
    configured fields "spec_structure" = .str settings.specStructure.name
  excludesMethod : ∃ methods starts,
    configured fields "excluded_methods" = .texts methods ∧
    configured fields "excluded_prefixes" = .texts starts ∧
    ∀ name, settings.excludesMethod name = .ok (methods.contains name ||
      starts.any fun start => start.toList.isPrefixOf name.toList)
  enables : ∃ cops, configured fields "disabled_cops" = .texts cops ∧
    ∀ cop, settings.enables cop = !cops.contains cop

theorem get?_defaults (member : key ∈ schema) :
    defaults.get? key.name = some key.default :=
  Fields.get?_eq_some_of_mem (by decide)
    (List.mem_map_of_mem (f := fun key => (key.name, key.default)) member)

theorem typed_structure : (key? "spec_structure").map Key.type =
    some (.choice (Spec.Structure.all.map Spec.Structure.name)) :=
  rfl

namespace IsSound

/-- Every key has a value of its type for the settings, if need be its
default. -/
theorem holds_configured (sound : IsSound fields) {name : String}
    {type : ValueType} (typed : (key? name).map Key.type = some type) :
    type.Holds (Settings.configured fields name) := by
  rcases Option.map_eq_some_iff.mp typed with ⟨key, named, rfl⟩
  rcases of_key?_eq_some named with ⟨member, rfl⟩
  unfold Settings.configured
  cases found : fields.get? key.name with
  | none =>
      rw [get?_defaults member]
      exact holds_default member
  | some value => exact sound.of_get? named found

theorem exists_follows (sound : IsSound fields) :
    ∃ settings : Settings, settings.Follows fields := by
  have list {name : String} (typed : (key? name).map Key.type = some .list) :
      ∃ items, Settings.configured fields name = .texts items :=
    (sound.holds_configured typed).imp fun _ holds => holds.1
  have covered : ∃ items,
      Settings.configured fields "covered_directories" = .texts items :=
    list rfl
  have methods : ∃ items,
      Settings.configured fields "excluded_methods" = .texts items :=
    list rfl
  have starts : ∃ items,
      Settings.configured fields "excluded_prefixes" = .texts items :=
    list rfl
  have cops : ∃ items,
      Settings.configured fields "disabled_cops" = .texts items :=
    list rfl
  rcases covered with ⟨covered, isCovered⟩
  rcases methods with ⟨methods, areMethods⟩
  rcases starts with ⟨starts, areStarts⟩
  rcases cops with ⟨cops, areCops⟩
  rcases sound.holds_configured typed_structure with ⟨text, chosen, named⟩
  rcases List.mem_map.mp chosen with ⟨way, -, rfl⟩
  rcases exists_namesOf_texts methods with ⟨names, taken, among⟩
  rcases exists_namesOf_texts cops with ⟨disabled, taken', among'⟩
  let settings : Settings := {
    ignoreMemoization :=
      (Settings.configured fields "ignore_memoization").truthy
    coveredDirectories := covered.map .str
    excludedMethods := names
    excludedStarts := starts.map .str
    specStructure := way
    disabledCops := disabled }
  refine ⟨settings, ?_, named, ?_, cops, areCops, fun cop => ?_⟩
  · rw [Settings.ofConfig, isCovered, areMethods, areStarts, areCops, named,
      taken, taken', Json.text?, Option.bind_some,
      Spec.Structure.ofName?_name]
    rfl
  · refine ⟨methods, starts, areMethods, areStarts, fun name => ?_⟩
    rw [Settings.excludesMethod, among, Settings.anyStarts_map_str]
    cases methods.contains name <;> rfl
  · rw [Settings.enables, among']

end IsSound

/--
Whatever is done with an empty configuration or with the defaults, and whatever
of it fails, every value stays one of its key: items of lists are told apart,
not empty, trimmed and without a comma, and the way to find blocks is a known
one.  The settings can be taken, keep that way, and can be used for every name.
-/
theorem isSound_run {start : Store}
    (initial : start = .empty ∨ start = .standard) (actions : List Action) :
    IsSound (start.run actions).fields ∧
      (∀ way, (start.run actions).fields.get? "spec_structure" = some way →
        way = .str "syntax" ∨ way = .str "indent") ∧
      ∃ settings : Settings, settings.Follows (start.run actions).fields := by
  have soundStart : start.IsSound := by
    rcases initial with rfl | rfl
    · exact ⟨.nil, fun _ absent => nomatch absent⟩
    · exact ⟨.defaults, fun _ absent => nomatch absent⟩
  have sound := (soundStart.run actions).fields
  refine ⟨sound, fun way found => ?_, sound.exists_follows⟩
  rcases Option.map_eq_some_iff.mp typed_structure with ⟨key, named, type⟩
  have holds := sound.of_get? named found
  rw [type] at holds
  rcases holds with ⟨text, chosen, rfl⟩
  simpa [Spec.Structure.all, Spec.Structure.name] using chosen

/-- An item is added once, an unknown way to find blocks is refused, and saving
changes nothing that is held. -/
theorem isSound_run_refused :
    let store := Store.empty.run
      [.set "disabled_cops" "A, ,A", .set "spec_structure" "tree", .save]
    store.fields = [("disabled_cops", .texts ["A"])] ∧
      IsSound store.fields ∧
      ∃ settings : Settings, settings.Follows store.fields := by
  intro store
  have sound := isSound_run (.inl rfl : Store.empty = .empty ∨ _)
    [.set "disabled_cops" "A, ,A", .set "spec_structure" "tree", .save]
  exact ⟨rfl, sound.1, sound.2.2⟩

end SpecAudit.Config

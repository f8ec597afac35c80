import SpecAudit.Proofs.Config.Saved
import SpecAudit.Proofs.Json.Fields
import SpecAudit.Proofs.Json.Writing

/-!
# What repairing makes of a configuration

Repairing goes over the keys one by one.  What it comes to can be said at once:
a value that is not of the type of its key gives way to the default in its
place, and the keys that are missing are appended with their defaults in the
order of the schema.  A configuration that is saved is loaded as it is after
repair, and so as it is if it was loaded before.
-/

namespace SpecAudit.Config

/-- The value of a name among keys: the default of its key in place of a value
of another type. -/
def mendedValue (keys : List Key) (name : String) (value : Json) : Json :=
  match keys.find? (·.name == name) with
  | some key => if key.type.admits value then value else key.default
  | none => value

/-- The keys that are missing, with their defaults. -/
def missing (keys : List Key) (fields : Fields) : Fields :=
  (keys.filter fun key => !fields.has key.name).map fun key =>
    (key.name, key.default)

/-- A configuration with mended values for keys, and the missing ones behind. -/
def mendedFor (keys : List Key) (fields : Fields) : Fields :=
  fields.map (fun field => (field.1, mendedValue keys field.1 field.2)) ++
    missing keys fields

/-- A configuration with a value of its type for every key. -/
def mended (fields : Fields) : Fields :=
  mendedFor schema fields

/-! ## One key after the other -/

section Keys

variable {fields : Fields} {key : Key} {keys : List Key}

theorem mendedValue_singleton (key : Key) (name : String) (value : Json) :
    mendedValue [key] name value =
      if key.name = name ∧ key.type.admits value = false then key.default
      else value := by
  unfold mendedValue
  by_cases same : key.name = name
  · cases admits : key.type.admits value <;> simp [same, admits]
  · simp [same]

theorem map_mendedValue_eq_self
    (kept : ∀ field ∈ fields, mendedValue keys field.1 field.2 = field.2) :
    fields.map (fun field => (field.1, mendedValue keys field.1 field.2)) =
      fields := by
  refine (List.map_congr_left fun field listed => ?_).trans (List.map_id fields)
  rw [kept field listed]
  rfl

/-- Repairing a key mends it. -/
theorem repairKey_eq_mendedFor (distinct : fields.keys.Nodup) (key : Key) :
    repairKey fields key = mendedFor [key] fields := by
  unfold repairKey mendedFor
  cases found : fields.get? key.name with
  | none =>
      have absent := Fields.get?_eq_none_iff.mp found
      have kept : ∀ field ∈ fields,
          mendedValue [key] field.1 field.2 = field.2 := by
        intro field listed
        rw [mendedValue_singleton, if_neg]
        rintro ⟨same, -⟩
        exact absent (List.mem_map.mpr ⟨field, listed, same.symm⟩)
      rw [map_mendedValue_eq_self kept]
      simp [missing, Fields.has, found, Json.put_of_not_mem absent]
  | some value =>
      have none' : missing [key] fields = [] := by
        simp [missing, Fields.has, found]
      have own (field) (listed : field ∈ fields) (same : key.name = field.1) :
          field.2 = value := by
        have get := Fields.get?_eq_some_of_mem distinct listed
        rw [← same, found] at get
        exact (Option.some.inj get).symm
      rw [none', List.append_nil]
      dsimp only
      split
      · rename_i admits
        refine (map_mendedValue_eq_self fun field listed => ?_).symm
        rw [mendedValue_singleton, if_neg]
        rintro ⟨same, refused⟩
        rw [own field listed same, admits] at refused
        cases refused
      · rename_i refused
        have present : key.name ∈ fields.keys := by
          rw [Fields.mem_keys_iff_has, Fields.has, found]
          rfl
        rw [Fields.put_of_mem distinct present]
        refine List.map_congr_left fun field listed => ?_
        rw [mendedValue_singleton]
        by_cases same : field.1 = key.name
        · have other : key.type.admits field.2 = false := by
            rw [own field listed same.symm]
            simpa using refused
          rw [if_pos same, if_pos ⟨same.symm, other⟩]
        · rw [if_neg same, if_neg fun both => same both.1.symm]

theorem mendedValue_of_not_mem {name : String}
    (fresh : name ∉ keys.map Key.name) (value : Json) :
    mendedValue keys name value = value := by
  have others : keys.find? (·.name == name) = none := by
    rw [List.find?_eq_none]
    intro other listed
    rw [beq_iff_eq]
    exact fun names => fresh (List.mem_map.mpr ⟨other, listed, names⟩)
  rw [mendedValue, others]

theorem mendedValue_cons (fresh : key.name ∉ keys.map Key.name)
    (name : String) (value : Json) :
    mendedValue keys name (mendedValue [key] name value) =
      mendedValue (key :: keys) name value := by
  by_cases same : key.name = name
  · subst same
    rw [mendedValue_of_not_mem fresh]
    simp [mendedValue]
  · simp [mendedValue, same]

theorem missing_cons (key : Key) (keys : List Key) (fields : Fields) :
    missing (key :: keys) fields =
      missing [key] fields ++ missing keys fields := by
  unfold missing
  rw [← List.map_append, ← List.filter_append]
  rfl

theorem keys_mendedFor (keys : List Key) (fields : Fields) :
    (mendedFor keys fields).keys = fields.keys ++ (missing keys fields).keys := by
  simp [mendedFor, Fields.keys]

theorem missing_mendedFor (fresh : key.name ∉ keys.map Key.name) :
    missing keys (mendedFor [key] fields) = missing keys fields := by
  have same : ∀ other ∈ keys,
      (mendedFor [key] fields).has other.name = fields.has other.name := by
    intro other listed
    have different : other.name ≠ key.name := fun names =>
      fresh (List.mem_map.mpr ⟨other, listed, names⟩)
    rw [Bool.eq_iff_iff, ← Fields.mem_keys_iff_has, ← Fields.mem_keys_iff_has,
      keys_mendedFor, List.mem_append, or_iff_left]
    intro member
    rcases List.mem_map.mp member with ⟨field, listed, named⟩
    rcases List.mem_map.mp listed with ⟨first, among, rfl⟩
    rw [List.mem_singleton.mp (List.mem_filter.mp among).1] at named
    exact different named.symm
  unfold missing
  rw [List.filter_congr fun other listed => by rw [same other listed]]

/-- Mending a key and then others mends them all. -/
theorem mendedFor_cons (fresh : key.name ∉ keys.map Key.name) :
    mendedFor keys (mendedFor [key] fields) = mendedFor (key :: keys) fields := by
  have kept : ∀ field ∈ missing [key] fields,
      mendedValue keys field.1 field.2 = field.2 := by
    intro field listed
    rcases List.mem_map.mp listed with ⟨first, among, rfl⟩
    rw [List.mem_singleton.mp (List.mem_filter.mp among).1]
    exact mendedValue_of_not_mem fresh _
  rw [mendedFor, missing_mendedFor fresh, mendedFor, List.map_append,
    map_mendedValue_eq_self kept, List.map_map, mendedFor,
    missing_cons key keys, List.append_assoc]
  congr 1
  refine List.map_congr_left fun field listed => ?_
  rw [← mendedValue_cons fresh]
  rfl

theorem nodup_keys_repairKey (distinct : fields.keys.Nodup) (key : Key) :
    (repairKey fields key).keys.Nodup := by
  rcases repairKey_cases fields key with ⟨-, unchanged⟩ | changed
  · rw [unchanged]
    exact distinct
  · rw [changed]
    exact Json.nodup_keys_put distinct

theorem foldl_repairKey_eq_mendedFor (distinct : fields.keys.Nodup)
    (apart : (keys.map Key.name).Nodup) :
    keys.foldl repairKey fields = mendedFor keys fields := by
  induction keys generalizing fields with
  | nil =>
      have kept : ∀ field ∈ fields, mendedValue [] field.1 field.2 = field.2 :=
        fun _ _ => rfl
      rw [mendedFor, map_mendedValue_eq_self kept]
      exact (List.append_nil fields).symm
  | cons key keys induction =>
      rcases List.nodup_cons.mp apart with ⟨fresh, apart⟩
      rw [List.foldl_cons, induction (nodup_keys_repairKey distinct key) apart,
        repairKey_eq_mendedFor distinct, mendedFor_cons fresh]

end Keys

/-- Repairing mends a configuration whose names can be told apart. -/
theorem repaired_eq_mended {fields : Fields} (distinct : fields.keys.Nodup) :
    repaired fields = mended fields :=
  foldl_repairKey_eq_mendedFor distinct (by decide)

/-! ## Saving and loading -/

section Saved

variable {fields : Fields} {text : String}

theorem save_eq_ok (written : save fields = .ok text) :
    text = saved fields ∧
      ∀ number ∈ (Json.obj fields).integers, Json.IsShort number := by
  rcases exists_of_map_eq_ok written with ⟨own, wrote, rfl⟩
  rcases Json.write_cases (.obj fields) with ⟨ok, short⟩ | ⟨failed, -⟩
  · rw [ok] at wrote
    cases wrote
    exact ⟨rfl, short⟩
  · rw [failed] at wrote
    cases wrote

theorem save_of_readable (readable : (Json.obj fields).Readable) :
    save fields = .ok (saved fields) := by
  rw [save, Json.write_of_isShort readable.isShort]
  rfl

end Saved

/--
A configuration is saved unless an integer in it is too long, and what is
loaded from the text is the configuration as it is after it was mended: wrong
values give way to defaults in their place, missing keys are appended.  What
was loaded from any content is saved and loaded again unchanged.
-/
theorem load_save_eq_mended {fields : Fields}
    (distinct : (Json.obj fields).HasDistinctNames) :
    (∀ text, save fields = .ok text →
      load (some text.toUTF8) = .ok (mended fields)) ∧
    (∀ fault, save fields = .error fault →
      ∃ number ∈ (Json.obj fields).integers, ¬ Json.IsShort number) ∧
    ∀ content?, load content? = .ok fields →
      ∃ text, save fields = .ok text ∧ load (some text.toUTF8) = .ok fields := by
  refine ⟨?_, ?_, ?_⟩
  · intro text written
    rcases save_eq_ok written with ⟨rfl, short⟩
    have readable := distinct.readable short
    cases distinct with
    | obj _ apart _ =>
        rw [load_saved_eq_repaired readable, repaired_eq_mended apart]
  · intro fault failed
    rcases Json.write_cases (.obj fields) with ⟨ok, -⟩ | ⟨-, long⟩
    · rw [save, ok] at failed
      cases failed
    · exact long
  · intro content? loaded
    have loadable := isLoadable_of_load loaded
    exact ⟨saved fields, save_of_readable loadable.readable,
      load_saved loadable⟩

/-- A value of a wrong type gives way in its place, a key that is not known
stays, and the missing keys follow; the defaults are loaded as they are. -/
theorem load_save_eq_mended_panel :
    let team : String × Json := ("team", .arr [.null, .str "\u00e9", .int (-7)])
    let fields : Fields := [("exclude", .int 5), team]
    (∃ text, save fields = .ok text ∧ load (some text.toUTF8) =
      .ok (("exclude", .arr []) :: team ::
        defaults.filter (·.1 ≠ "exclude"))) ∧
    ∃ text, save defaults = .ok text ∧
      load (some text.toUTF8) = .ok defaults := by
  intro team fields
  have readable : (Json.obj fields).Readable := by
    refine .obj fields (by decide) ?_
    rw [List.forall_mem_cons, List.forall_mem_singleton]
    refine ⟨.int 5 (by decide), .arr _ ?_⟩
    rw [List.forall_mem_cons, List.forall_mem_cons, List.forall_mem_singleton]
    exact ⟨.null, .str _, .int _ (by decide)⟩
  have mends : mended fields =
      ("exclude", .arr []) :: team :: defaults.filter (·.1 ≠ "exclude") := by
    rfl
  have loaded : load none = .ok defaults := by
    rfl
  have distinct := (isLoadable_of_load loaded).readable.hasDistinctNames
  constructor
  · refine ⟨_, save_of_readable readable, ?_⟩
    rw [← mends]
    exact (load_save_eq_mended readable.hasDistinctNames).1 _
      (save_of_readable readable)
  · exact (load_save_eq_mended distinct).2.2 none loaded

end SpecAudit.Config

import SpecAudit.Config.Settings
import SpecAudit.Proofs.Config.Saved

/-!
# Taking settings

Repairing a configuration looks at the values of its keys and not at what their
lists hold.  So a collection among names shows only when the settings are taken
from the configuration; nothing else keeps them from being taken.
-/

namespace SpecAudit.Config

variable {fields : Fields}

/-! ## Names and lists -/

theorem fails_namesOf_iff {items : List Json} :
    Fails (namesOf (.arr items)) ↔ ∃ item ∈ items, isPlain item = false := by
  have taken : namesOf (.arr items) =
      if items.all isPlain then .ok (distinctEntries items)
      else .error .collectionAsName :=
    rfl
  rw [taken]
  split
  · rename_i plain
    simp_all
  · rename_i nested
    simp_all

/-- A key that takes a list has one in every configuration that is loaded. -/
theorem IsLoadable.exists_items (loadable : IsLoadable fields) {name : String}
    (typed : (key? name).map Key.type = some .list) :
    ∃ items, fields.get? name = some (.arr items) := by
  rcases Option.map_eq_some_iff.mp typed with ⟨key, named, type⟩
  rcases of_key?_eq_some named with ⟨member, rfl⟩
  rcases loadable.hasValue key member with ⟨value, found, admitted⟩
  rw [type] at admitted
  cases value with
  | arr items => exact ⟨items, found⟩
  | _ => cases admitted

theorem configured_of_get? {name : String} {value : Json}
    (found : fields.get? name = some value) :
    Settings.configured fields name = value := by
  rw [Settings.configured, found]
  rfl

/-- Whether a configuration has lists for the keys that settings take lists
from. -/
structure HasLists (fields : Fields) (covered methods starts cops : List Json) :
    Prop where
  covered : fields.get? "covered_directories" = some (.arr covered)
  methods : fields.get? "excluded_methods" = some (.arr methods)
  starts : fields.get? "excluded_prefixes" = some (.arr starts)
  cops : fields.get? "disabled_cops" = some (.arr cops)

theorem IsLoadable.exists_hasLists (loadable : IsLoadable fields) :
    ∃ covered methods starts cops,
      HasLists fields covered methods starts cops := by
  have covered : ∃ items,
      fields.get? "covered_directories" = some (.arr items) :=
    loadable.exists_items rfl
  have methods : ∃ items, fields.get? "excluded_methods" = some (.arr items) :=
    loadable.exists_items rfl
  have starts : ∃ items, fields.get? "excluded_prefixes" = some (.arr items) :=
    loadable.exists_items rfl
  have cops : ∃ items, fields.get? "disabled_cops" = some (.arr items) :=
    loadable.exists_items rfl
  rcases covered with ⟨covered, isCovered⟩
  rcases methods with ⟨methods, areMethods⟩
  rcases starts with ⟨starts, areStarts⟩
  rcases cops with ⟨cops, areCops⟩
  exact ⟨covered, methods, starts, cops,
    ⟨isCovered, areMethods, areStarts, areCops⟩⟩

section Lists

variable {covered methods starts cops : List Json}
variable (lists : HasLists fields covered methods starts cops)

include lists

theorem HasLists.ofConfig_eq :
    Settings.ofConfig fields = do
      let names ← namesOf (.arr methods)
      let disabled ← namesOf (.arr cops)
      return {
        ignoreMemoization :=
          (Settings.configured fields "ignore_memoization").truthy
        coveredDirectories := covered
        excludedMethods := names
        excludedStarts := starts
        specStructure :=
          ((Settings.configured fields "spec_structure").text?.bind
            Spec.Structure.ofName?).getD .byTree
        disabledCops := disabled } := by
  rw [Settings.ofConfig, configured_of_get? lists.covered,
    configured_of_get? lists.methods, configured_of_get? lists.starts,
    configured_of_get? lists.cops]
  rfl

/-- Settings can be taken unless a collection stands among the names of methods
or of checks. -/
theorem HasLists.fails_ofConfig_iff :
    Fails (Settings.ofConfig fields) ↔
      (∃ item ∈ methods, isPlain item = false) ∨
        ∃ item ∈ cops, isPlain item = false := by
  rw [lists.ofConfig_eq, ← fails_namesOf_iff, ← fails_namesOf_iff]
  exact fails_bind_iff_or fun names _ => fails_bind_pure_iff

/-- The directories and the starts of names are taken as they are listed. -/
theorem HasLists.of_ofConfig {settings : Settings}
    (taken : Settings.ofConfig fields = .ok settings) :
    settings.coveredDirectories = covered ∧
      settings.excludedStarts = starts := by
  rw [lists.ofConfig_eq] at taken
  rcases exists_of_bind_eq_ok taken with ⟨names, -, taken⟩
  rcases exists_of_bind_eq_ok taken with ⟨disabled, -, taken⟩
  cases taken
  exact ⟨rfl, rfl⟩

end Lists

end SpecAudit.Config

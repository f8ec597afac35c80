import SpecAudit.Audit.Contexts
import SpecAudit.Audit.Existence

/-!
# Runs of audit steps

A step run from an index gives a result and the index after it.  Asking for a
spec document gives what the index keeps for its path, or what the document
has now, and keeps it; whoever asks again is given the same.
-/

namespace SpecAudit.Audit

open SpecAudit.Config (Settings)
open SpecAudit.Method (Site countBranches)
open SpecAudit.Spec (Forest)

/-! ## Sequences of steps -/

/-- What a step gives from an index, and the index after it. -/
def outcome {α : Type} (step : Step α) (index : SpecIndex) :
    Except Fault α × SpecIndex :=
  step.run index

variable {α β : Type}

@[simp]
theorem outcome_pure (value : α) (index : SpecIndex) :
    outcome (pure value) index = (.ok value, index) :=
  rfl

@[simp]
theorem outcome_lift (result : Except Fault α) (index : SpecIndex) :
    outcome (lift result) index = (result, index) :=
  rfl

theorem outcome_bind_of_ok {step : Step α} {next : α → Step β} {value : α}
    {index later : SpecIndex}
    (first : outcome step index = (.ok value, later)) :
    outcome (step >>= next) index = outcome (next value) later := by
  change
    ExceptT.bindCont next (outcome step index).1 (outcome step index).2 = _
  rw [first]
  rfl

theorem outcome_bind_of_error {step : Step α} {next : α → Step β}
    {fault : Fault} {index later : SpecIndex}
    (first : outcome step index = (.error fault, later)) :
    outcome (step >>= next) index = (.error fault, later) := by
  change
    ExceptT.bindCont next (outcome step index).1 (outcome step index).2 = _
  rw [first]
  rfl

/-- A sequence of steps that succeeds has a first step that does. -/
theorem outcome_bind_eq_ok {step : Step α} {next : α → Step β} {value : β}
    {index later : SpecIndex}
    (whole : outcome (step >>= next) index = (.ok value, later)) :
    ∃ between middle,
      outcome step index = (.ok between, middle) ∧
        outcome (next between) middle = (.ok value, later) := by
  cases first : outcome step index with
  | mk result middle =>
      cases result with
      | error fault =>
          rw [outcome_bind_of_error first] at whole
          cases whole
      | ok between =>
          rw [outcome_bind_of_ok first] at whole
          exact ⟨between, middle, rfl, whole⟩

theorem outcome_ofSettings_eq_ok {result : Except Config.SettingsFault α}
    {value : α} {index later : SpecIndex}
    (given : outcome (ofSettings result) index = (.ok value, later)) :
    result = .ok value ∧ later = index := by
  cases result with
  | error fault => cases given
  | ok found =>
      cases given
      exact ⟨rfl, rfl⟩

theorem outcome_ofDisk_eq_ok {result : Except Project.DiskFault α}
    {value : α} {index later : SpecIndex}
    (given : outcome (ofDisk result) index = (.ok value, later)) :
    result = .ok value ∧ later = index := by
  cases result with
  | error fault => cases given
  | ok found =>
      cases given
      exact ⟨rfl, rfl⟩

@[simp]
theorem outcome_ofSettings_ok (value : α) (index : SpecIndex) :
    outcome (ofSettings (.ok value)) index = (.ok value, index) :=
  rfl

@[simp]
theorem outcome_ofDisk_ok (value : α) (index : SpecIndex) :
    outcome (ofDisk (.ok value)) index = (.ok value, index) :=
  rfl

@[simp]
theorem outcome_ofDisk_error (fault : Project.DiskFault) (index : SpecIndex) :
    outcome (ofDisk (.error fault) : Step α) index =
      (.error (.path fault), index) :=
  rfl

/-- Steps that leave the index alone give their values one after the other. -/
theorem outcome_mapM {step : α → Step β} {value : α → β} {index : SpecIndex} :
    ∀ {list : List α},
      (∀ item ∈ list, outcome (step item) index = (.ok (value item), index)) →
      outcome (list.mapM step) index = (.ok (list.map value), index)
  | [], _ => rfl
  | first :: rest, each => by
      have others : outcome (rest.mapM step) index =
          (.ok (rest.map value), index) :=
        outcome_mapM fun item member =>
          each item (List.mem_cons_of_mem _ member)
      rw [List.mapM_cons, outcome_bind_of_ok (each first List.mem_cons_self),
        outcome_bind_of_ok others]
      rfl

/-- Of steps that leave the index alone, the first that fails ends the run. -/
theorem outcome_mapM_of_error {step : α → Step β} {fault : Fault}
    {index : SpecIndex} :
    ∀ {list : List α},
      (∀ item ∈ list,
        (∃ value, outcome (step item) index = (.ok value, index)) ∨
          outcome (step item) index = (.error fault, index)) →
      (∃ item ∈ list, outcome (step item) index = (.error fault, index)) →
      outcome (list.mapM step) index = (.error fault, index)
  | [], _, fails => by simp at fails
  | first :: rest, each, fails => by
      rw [List.mapM_cons]
      rcases each first List.mem_cons_self with ⟨value, succeeds⟩ | failed
      · have later : ∃ item ∈ rest,
            outcome (step item) index = (.error fault, index) := by
          rcases fails with ⟨item, member, failed⟩
          rcases List.mem_cons.mp member with rfl | member
          · rw [succeeds] at failed
            cases failed
          · exact ⟨item, member, failed⟩
        have others :
            outcome (rest.mapM step) index = (.error fault, index) :=
          outcome_mapM_of_error
            (fun item member => each item (List.mem_cons_of_mem _ member))
            later
        rw [outcome_bind_of_ok succeeds, outcome_bind_of_error others]
      · exact outcome_bind_of_error failed

/-! ## Spec documents -/

namespace SpecIndex

/-- What the index gives for a path: what it keeps, or what stands there. -/
def given (workspace : Workspace) (path : String) (index : SpecIndex) :
    Except Fault (Option Forest) :=
  match index.forests.lookup path with
  | some kept => .ok kept
  | none => readForest workspace index.structureName path

/-- The index that keeps the blocks of a path, unless it keeps some already. -/
def keep (path : String) (blocks : Option Forest) (index : SpecIndex) :
    SpecIndex :=
  match index.forests.lookup path with
  | some _ => index
  | none => { index with forests := (path, blocks) :: index.forests }

theorem outcome_forest (workspace : Workspace) (path : String)
    (index : SpecIndex) :
    outcome (forest workspace path) index =
      match index.given workspace path with
      | .ok blocks => (.ok blocks, index.keep path blocks)
      | .error fault => (.error fault, index) := by
  change
    outcome
        (match index.forests.lookup path with
        | some kept => (pure kept : Step (Option Forest))
        | none => do
            let read ← lift (readForest workspace index.structureName path)
            modify fun index =>
              { index with forests := (path, read) :: index.forests }
            return read)
        index = _
  unfold given keep
  cases index.forests.lookup path with
  | some kept => rfl
  | none => cases readForest workspace index.structureName path <;> rfl

theorem outcome_forest_of_ok {workspace : Workspace} {path : String}
    {index : SpecIndex} {blocks : Option Forest}
    (found : index.given workspace path = .ok blocks) :
    outcome (forest workspace path) index =
      (.ok blocks, index.keep path blocks) := by
  rw [outcome_forest, found]

theorem outcome_forest_eq_ok {workspace : Workspace} {path : String}
    {index later : SpecIndex} {blocks : Option Forest}
    (asked : outcome (forest workspace path) index = (.ok blocks, later)) :
    index.given workspace path = .ok blocks ∧
      later = index.keep path blocks := by
  rw [outcome_forest] at asked
  cases found : index.given workspace path with
  | error fault =>
      rw [found] at asked
      cases asked
  | ok blocks' =>
      rw [found] at asked
      cases asked
      exact ⟨rfl, rfl⟩

/-- What was given for a path is given again, and so is that of any other. -/
theorem given_keep {workspace : Workspace} {path : String}
    {index : SpecIndex} {blocks : Option Forest}
    (found : index.given workspace path = .ok blocks) (other : String) :
    (index.keep path blocks).given workspace other =
      index.given workspace other := by
  unfold keep
  cases looked : index.forests.lookup path with
  | some kept => rfl
  | none =>
      by_cases same : other = path
      · rw [same, found]
        simp [given]
      · have passed : (other == path) = false := by
          simpa using same
        simp [given, List.lookup_cons, passed]

end SpecIndex

end SpecAudit.Audit

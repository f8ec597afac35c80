import SpecAudit.Proofs.Attempt
import SpecAudit.Proofs.Audit.Runs

/-!
# Indexes that are up to date

While no file changes, whatever an index keeps is what the documents hold now.
Asking for a document leaves the index that way, and so does every sequence of
such steps.  From any index that is up to date a step gives the same result: a
value, or a fault.  Of a step that the settings may stop, it is said on which
condition they do.
-/

namespace SpecAudit.Audit

open SpecAudit.Spec (Forest Structure forestOf)

/-- The blocks that a spec document has now, `none` if it is unreadable. -/
def forestNow (workspace : Workspace) (way : Structure) (path : String) :
    Option Forest :=
  (workspace.project.text? path).map (forestOf workspace.grammar way)

variable {workspace : Workspace} {way : Structure}

namespace SpecIndex

theorem readForest_name (path : String) :
    readForest workspace way.name path = .ok (forestNow workspace way path) := by
  rw [readForest, forestNow, Structure.ofName?_name]
  cases workspace.project.text? path <;> rfl

/-- Whether an index keeps only what the documents hold now. -/
structure IsCurrent (workspace : Workspace) (way : Structure)
    (index : SpecIndex) : Prop where
  reads : index.structureName = way.name
  kept : ∀ path blocks, index.forests.lookup path = some blocks →
    blocks = forestNow workspace way path

theorem isCurrent_empty : (empty way.name).IsCurrent workspace way where
  reads := rfl
  kept := by simp [empty]

variable {index : SpecIndex}

theorem IsCurrent.given (current : index.IsCurrent workspace way)
    (path : String) :
    index.given workspace path = .ok (forestNow workspace way path) := by
  unfold SpecIndex.given
  cases found : index.forests.lookup path with
  | some blocks => rw [current.kept path blocks found]
  | none =>
      rw [current.reads]
      exact readForest_name path

theorem IsCurrent.keep (current : index.IsCurrent workspace way)
    (path : String) :
    (index.keep path (forestNow workspace way path)).IsCurrent workspace
      way := by
  unfold SpecIndex.keep
  cases found : index.forests.lookup path with
  | some blocks => exact current
  | none =>
      refine ⟨current.reads, ?_⟩
      intro other blocks looked
      by_cases same : other = path
      · simp only [same, List.lookup_cons_self, Option.some.injEq] at looked
        rw [← looked, same]
      · have passed : (other == path) = false := by simpa using same
        rw [List.lookup_cons, passed] at looked
        exact current.kept other blocks looked

end SpecIndex

/-! ## What steps give -/

variable {α β : Type}

/--
Whether a step gives a result from every index that is up to date, and leaves
the index up to date.
-/
def Gives (workspace : Workspace) (way : Structure) (step : Step α)
    (result : Except Fault α) : Prop :=
  ∀ index : SpecIndex, index.IsCurrent workspace way →
    (outcome step index).1 = result ∧
      (outcome step index).2.IsCurrent workspace way

namespace Gives

theorem lift (result : Except Fault α) :
    Gives workspace way (Audit.lift result) result :=
  fun _ current => ⟨rfl, current⟩

theorem pure (value : α) :
    Gives workspace way (Pure.pure value : Step α) (.ok value) :=
  fun _ current => ⟨rfl, current⟩

theorem ofSettings {result : Except Config.SettingsFault α} {value : α}
    (answered : result = .ok value) :
    Gives workspace way (Audit.ofSettings result) (.ok value) := by
  rw [answered]
  exact lift _

theorem ofDisk {result : Except Project.DiskFault α} {value : α}
    (found : result = .ok value) :
    Gives workspace way (Audit.ofDisk result) (.ok value) := by
  rw [found]
  exact lift _

theorem forest (path : String) :
    Gives workspace way (SpecIndex.forest workspace path)
      (.ok (forestNow workspace way path)) := by
  intro index current
  rw [SpecIndex.outcome_forest_of_ok (current.given path)]
  exact ⟨rfl, current.keep path⟩

theorem bind {step : Step α} {next : α → Step β} {value : α}
    {result : Except Fault β} (first : Gives workspace way step (.ok value))
    (later : Gives workspace way (next value) result) :
    Gives workspace way (step >>= next) result := by
  intro index current
  rcases first index current with ⟨given, middle⟩
  rw [outcome_bind_of_ok (Prod.ext given rfl)]
  exact later _ middle

theorem bind_error {step : Step α} {next : α → Step β} {fault : Fault}
    (first : Gives workspace way step (.error fault)) :
    Gives workspace way (step >>= next) (.error fault) := by
  intro index current
  rcases first index current with ⟨given, middle⟩
  rw [outcome_bind_of_error (Prod.ext given rfl)]
  exact ⟨rfl, middle⟩

end Gives

/-- A step that gives the same result from every index, and leaves it alone. -/
theorem Gives.of_outcome {step : Step α} {result : Except Fault α}
    (same : ∀ index, outcome step index = (result, index)) :
    Gives workspace way step result := by
  intro index current
  rw [same index]
  exact ⟨rfl, current⟩

theorem Gives.exists_bind {step : Step α} {next : α → Step β} {value : α}
    (first : Gives workspace way step (.ok value))
    (later : ∃ value', Gives workspace way (next value) (.ok value')) :
    ∃ value', Gives workspace way (step >>= next) (.ok value') := by
  rcases later with ⟨value', gives⟩
  exact ⟨value', first.bind gives⟩

/-- Whether a step gives a value of which something holds. -/
def Yields (workspace : Workspace) (way : Structure) (step : Step α)
    (holds : α → Prop) : Prop :=
  ∃ value, Gives workspace way step (.ok value) ∧ holds value

theorem Gives.bind_yields {step : Step α} {next : α → Step β} {value : α}
    {holds : β → Prop} (first : Gives workspace way step (.ok value))
    (later : Yields workspace way (next value) holds) :
    Yields workspace way (step >>= next) holds := by
  rcases later with ⟨value', given, fact⟩
  exact ⟨value', first.bind given, fact⟩

namespace Yields

variable {holds : α → Prop} {holds' : β → Prop}

theorem pure {value : α} (fact : holds value) :
    Yields workspace way (Pure.pure value : Step α) holds :=
  ⟨value, .pure value, fact⟩

theorem bind {step : Step α} {next : α → Step β}
    (first : Yields workspace way step holds)
    (later : ∀ value, holds value → Yields workspace way (next value) holds') :
    Yields workspace way (step >>= next) holds' := by
  rcases first with ⟨value, given, fact⟩
  exact given.bind_yields (later value fact)

/-- Steps for the items of a list yield their values one after the other. -/
theorem mapM {step : α → Step β} :
    ∀ {list : List α},
      (∀ item ∈ list, Yields workspace way (step item) holds') →
      Yields workspace way (list.mapM step)
        fun values => ∀ value ∈ values, holds' value
  | [], _ => .pure (by simp)
  | first :: rest, each => by
      rw [List.mapM_cons]
      refine (each first List.mem_cons_self).bind fun value fact => ?_
      have others : Yields workspace way (rest.mapM step)
          fun values => ∀ value ∈ values, holds' value :=
        mapM fun item member => each item (List.mem_cons_of_mem _ member)
      refine others.bind fun values facts => .pure ?_
      exact List.forall_mem_cons.mpr ⟨fact, facts⟩

end Yields

/-! ## Steps that may be stopped -/

/-- Whether a step gives a value, or is stopped by the settings on a
condition. -/
def StopsIff (workspace : Workspace) (way : Structure) (step : Step α)
    (stops : Prop) : Prop :=
  (¬ stops ∧ ∃ value, Gives workspace way step (.ok value)) ∨
    (stops ∧ ∃ fault, Gives workspace way step (.error (.settings fault)))

namespace StopsIff

variable {step : Step α} {next : α → Step β} {stops stops' : Prop}

theorem congr (same : stops ↔ stops')
    (given : StopsIff workspace way step stops) :
    StopsIff workspace way step stops' := by
  rwa [StopsIff, ← same]

theorem exists_gives (given : StopsIff workspace way step stops)
    (goesOn : ¬ stops) : ∃ value, Gives workspace way step (.ok value) := by
  rcases given with ⟨-, gives⟩ | ⟨stopped, -⟩
  · exact gives
  · exact absurd stopped goesOn

theorem of_gives {value : α} (gives : Gives workspace way step (.ok value)) :
    StopsIff workspace way step False :=
  .inl ⟨not_false, value, gives⟩

theorem pure (value : α) :
    StopsIff workspace way (Pure.pure value : Step α) False :=
  of_gives (.pure value)

theorem ofSettings (result : Except Config.SettingsFault α) :
    StopsIff workspace way (Audit.ofSettings result) (Fails result) := by
  cases result with
  | error fault => exact .inr ⟨fails_error fault, fault, .lift _⟩
  | ok value => exact .inl ⟨not_fails_ok value, value, .lift _⟩

theorem bind (first : StopsIff workspace way step stops)
    (later : ∀ value, Gives workspace way step (.ok value) →
      StopsIff workspace way (next value) stops') :
    StopsIff workspace way (step >>= next) (stops ∨ stops') := by
  rcases first with ⟨goesOn, value, gives⟩ | ⟨stopped, fault, gives⟩
  · rcases later value gives with ⟨goesOn', value', gives'⟩ |
      ⟨stopped, fault, gives'⟩
    · exact .inl ⟨not_or_intro goesOn goesOn', value', gives.bind gives'⟩
    · exact .inr ⟨.inr stopped, fault, gives.bind gives'⟩
  · exact .inr ⟨.inl stopped, fault, gives.bind_error⟩

/-- Where the first step gives a value, the second decides. -/
theorem after {value : α} (first : Gives workspace way step (.ok value))
    (later : StopsIff workspace way (next value) stops) :
    StopsIff workspace way (step >>= next) stops := by
  rcases later with ⟨goesOn, value', gives⟩ | ⟨stopped, fault, gives⟩
  · exact .inl ⟨goesOn, value', first.bind gives⟩
  · exact .inr ⟨stopped, fault, first.bind gives⟩

/-- Where the second step always gives a value, the first decides. -/
theorem before (first : StopsIff workspace way step stops)
    (later : ∀ value, ∃ value', Gives workspace way (next value) (.ok value')) :
    StopsIff workspace way (step >>= next) stops := by
  rcases first with ⟨goesOn, value, gives⟩ | ⟨stopped, fault, gives⟩
  · rcases later value with ⟨value', gives'⟩
    exact .inl ⟨goesOn, value', gives.bind gives'⟩
  · exact .inr ⟨stopped, fault, gives.bind_error⟩

/-- A step that is left out unless it is enabled stops nothing then. -/
theorem bind_if {enabled : Bool} {step : Step (List α)}
    {next : List α → Step β} (first : StopsIff workspace way step stops)
    (later : ∀ values, StopsIff workspace way (next values) stops') :
    StopsIff workspace way
      (if enabled then step >>= next else Pure.pure [] >>= next)
      (enabled = true ∧ stops ∨ stops') := by
  cases enabled with
  | true => exact (first.bind fun values _ => later values).congr (by simp)
  | false => exact (after (.pure []) (later [])).congr (by simp)

/-- Steps for the items of a list are stopped by the first item that stops. -/
theorem mapM {step : α → Step β} {stops : α → Prop} :
    ∀ {list : List α},
      (∀ item ∈ list, StopsIff workspace way (step item) (stops item)) →
      StopsIff workspace way (list.mapM step) (∃ item ∈ list, stops item)
  | [], _ => (pure []).congr (by simp)
  | first :: rest, each => by
      rw [List.mapM_cons]
      have others : StopsIff workspace way (rest.mapM step)
          (∃ item ∈ rest, stops item) :=
        mapM fun item member => each item (List.mem_cons_of_mem _ member)
      exact ((each first List.mem_cons_self).bind fun value _ =>
        others.before fun values => ⟨_, .pure _⟩).congr
          (by rw [List.exists_mem_cons_iff])

end StopsIff

end SpecAudit.Audit

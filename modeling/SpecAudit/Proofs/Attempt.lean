import Mathlib.Data.List.Forall2

/-!
# Steps that can fail

What is known of the steps when something made of them succeeds, and of which
of them fails when it does not.
-/

namespace SpecAudit

variable {α β ε ε' : Type} {step : Except ε α} {result : β}

/-- What succeeds in two steps succeeds in the first and, from there, in the
second. -/
theorem exists_of_bind_eq_ok {next : α → Except ε β}
    (whole : step >>= next = .ok result) :
    ∃ value, step = .ok value ∧ next value = .ok result := by
  cases step with
  | error fault => cases whole
  | ok value => exact ⟨value, rfl, whole⟩

theorem exists_of_map_eq_ok {change : α → β}
    (whole : step.map change = .ok result) :
    ∃ value, step = .ok value ∧ change value = result := by
  cases step with
  | error fault => cases whole
  | ok value => exact ⟨value, rfl, Except.ok.inj whole⟩

theorem eq_ok_of_mapError_eq_ok {change : ε → ε'} {value : α}
    (whole : step.mapError change = .ok value) : step = .ok value := by
  cases step with
  | error fault => cases whole
  | ok value' => exact congrArg Except.ok (Except.ok.inj whole)

/-- Steps for the items of a list that succeed give a value for each item. -/
theorem forall₂_of_mapM_eq_ok {step : α → Except ε β} {items : List α}
    {values : List β} (whole : items.mapM step = .ok values) :
    List.Forall₂ (fun item value => step item = .ok value) items values := by
  induction items generalizing values with
  | nil =>
      cases whole
      exact .nil
  | cons item items induction =>
      rw [List.mapM_cons] at whole
      rcases exists_of_bind_eq_ok whole with ⟨value, first, whole⟩
      rcases exists_of_bind_eq_ok whole with ⟨others, later, whole⟩
      cases whole
      exact .cons first (induction later)

/-! ## Failing -/

/-- Whether a step fails. -/
def Fails (step : Except ε α) : Prop :=
  ∃ fault, step = .error fault

section Fails

@[simp]
theorem not_fails_ok (value : α) : ¬ Fails (.ok value : Except ε α) :=
  fun ⟨_, failed⟩ => nomatch failed

@[simp]
theorem not_fails_pure (value : α) : ¬ Fails (pure value : Except ε α) :=
  not_fails_ok value

@[simp]
theorem fails_error (fault : ε) : Fails (.error fault : Except ε α) :=
  ⟨fault, rfl⟩

theorem exists_of_not_fails (succeeds : ¬ Fails step) :
    ∃ value, step = .ok value := by
  cases step with
  | error fault => exact absurd (fails_error fault) succeeds
  | ok value => exact ⟨value, rfl⟩

/-- Two steps fail if the first does, or the second from what the first gives. -/
theorem fails_bind_iff {next : α → Except ε β} :
    Fails (step >>= next) ↔
      Fails step ∨ ∃ value, step = .ok value ∧ Fails (next value) := by
  cases step with
  | error fault => simp [bind, Except.bind]
  | ok value => simp [bind, Except.bind]

/-- Where the second step fails on one condition whatever the first gives. -/
theorem fails_bind_iff_or {next : α → Except ε β} {later : Prop}
    (each : ∀ value, step = .ok value → (Fails (next value) ↔ later)) :
    Fails (step >>= next) ↔ Fails step ∨ later := by
  cases step with
  | error fault => simp [bind, Except.bind]
  | ok value => simpa [bind, Except.bind] using each value rfl

/-- What is made of a value in the end cannot fail. -/
@[simp]
theorem fails_bind_pure_iff {change : α → β} :
    Fails (step >>= fun value => pure (change value)) ↔ Fails step := by
  rw [fails_bind_iff_or fun value _ => iff_false_intro (not_fails_pure _),
    or_false]

@[simp]
theorem fails_mapError_iff {change : ε → ε'} :
    Fails (step.mapError change) ↔ Fails step := by
  cases step <;> simp [Except.mapError]

end Fails

/-! ## Faults of a kind -/

/-- Whether a step fails, if it does, with a fault of which something holds. -/
def OnlyFails (holds : ε → Prop) (step : Except ε α) : Prop :=
  ∀ fault, step = .error fault → holds fault

namespace OnlyFails

variable {holds : ε → Prop}

theorem ok (value : α) : OnlyFails holds (.ok value : Except ε α) :=
  nofun

theorem error {fault : ε} (fact : holds fault) :
    OnlyFails holds (.error fault : Except ε α) := by
  rintro _ ⟨⟩
  exact fact

theorem bind {next : α → Except ε β} (first : OnlyFails holds step)
    (later : ∀ value, OnlyFails holds (next value)) :
    OnlyFails holds (step >>= next) := by
  cases step with
  | error fault => exact error (first fault rfl)
  | ok value => exact later value

end OnlyFails

/-! ## Questions asked in order -/

section Questions

variable {ask : α → Except ε Bool} {items : List α}

/-- Ask about the items of a list, one after the other, until the answer is
yes. -/
def anyAnswers (ask : α → Except ε Bool) : List α → Except ε Bool
  | [] => .ok false
  | item :: rest => do
    if ← ask item then return true else anyAnswers ask rest

/-- Whether the question about an item fails after the answer was no for every
item before it. -/
def FailsFirst (ask : α → Except ε Bool) (items : List α) : Prop :=
  ∃ before item after,
    items = before ++ item :: after ∧
      (∀ earlier ∈ before, ask earlier = .ok false) ∧ Fails (ask item)

theorem failsFirst_cons_iff {item : α} :
    FailsFirst ask (item :: items) ↔
      Fails (ask item) ∨ ask item = .ok false ∧ FailsFirst ask items := by
  constructor
  · rintro ⟨before, failing, after, same, answered, fails⟩
    cases before with
    | nil =>
        cases same
        exact .inl fails
    | cons first before =>
        cases same
        rcases List.forall_mem_cons.mp answered with ⟨no, answered⟩
        exact .inr ⟨no, before, failing, after, rfl, answered, fails⟩
  · rintro (fails | ⟨no, before, failing, after, rfl, answered, fails⟩)
    · exact ⟨[], item, items, rfl, by simp, fails⟩
    · exact ⟨item :: before, failing, after, rfl,
        List.forall_mem_cons.mpr ⟨no, answered⟩, fails⟩

theorem fails_anyAnswers_iff :
    Fails (anyAnswers ask items) ↔ FailsFirst ask items := by
  induction items with
  | nil => simp [anyAnswers, FailsFirst]
  | cons item rest induction =>
      rw [anyAnswers, fails_bind_iff, failsFirst_cons_iff, ← induction]
      refine or_congr_right ⟨?_, fun ⟨no, fails⟩ => ⟨false, no, fails⟩⟩
      rintro ⟨answer, answered, fails⟩
      cases answer with
      | true => exact absurd fails (not_fails_ok true)
      | false => exact ⟨answered, fails⟩

end Questions

end SpecAudit

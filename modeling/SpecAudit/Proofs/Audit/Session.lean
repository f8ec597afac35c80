import Mathlib.Data.List.Induction
import SpecAudit.Audit.Session
import SpecAudit.Proofs.Audit.Runs

/-!
# First readings

An index gives for a path what the document held when it was first read with
success, whatever happens to the document since.  A reading that fails is not
kept, so that the next one looks at the document again.
-/

namespace SpecAudit.Audit

open SpecAudit.Spec (Forest)

/-- What a document gives after events when it is read there and then. -/
def readAfter (workspace : Workspace) (structureName path : String)
    (events : List Event) : Except Fault (Option Forest) :=
  SpecIndex.readForest (workspace.afterAll events) structureName path

/-- Whether every reading of a path among events fails. -/
def FailsThroughout (workspace : Workspace) (structureName path : String)
    (events : List Event) : Prop :=
  ∀ earlier, earlier ++ [.read path] <+: events →
    ∃ fault, readAfter workspace structureName path earlier = .error fault

/--
Whether blocks are what the first successful reading of a path among events
gives; `earlier` is what happens before this reading.
-/
structure IsFirstReading (workspace : Workspace) (structureName path : String)
    (events earlier : List Event) (blocks : Option Forest) : Prop where
  read : earlier ++ [.read path] <+: events
  fails : FailsThroughout workspace structureName path earlier
  given : readAfter workspace structureName path earlier = .ok blocks

variable {workspace : Workspace} {structureName path : String}
variable {events earlier : List Event} {event : Event}
variable {blocks : Option Forest} {fault : Fault}

/-! ## Readings among events -/

theorem failsThroughout_append :
    FailsThroughout workspace structureName path (events ++ [event]) ↔
      FailsThroughout workspace structureName path events ∧
        (event = .read path → ∃ fault,
          readAfter workspace structureName path events = .error fault) := by
  simp only [FailsThroughout, List.prefix_concat_iff, List.append_singleton_inj]
  constructor
  · intro fails
    exact ⟨fun earlier among => fails earlier (.inr among),
      fun same => fails events (.inl ⟨rfl, same.symm⟩)⟩
  · rintro ⟨fails, last⟩ earlier (⟨rfl, same⟩ | among)
    · exact last same.symm
    · exact fails earlier among

theorem isFirstReading_append :
    IsFirstReading workspace structureName path (events ++ [event]) earlier
        blocks ↔
      IsFirstReading workspace structureName path events earlier blocks ∨
        event = .read path ∧ earlier = events ∧
          FailsThroughout workspace structureName path events ∧
          readAfter workspace structureName path events = .ok blocks := by
  constructor
  · rintro ⟨read, fails, given⟩
    rw [List.prefix_concat_iff, List.append_singleton_inj] at read
    rcases read with ⟨rfl, same⟩ | among
    · exact .inr ⟨same.symm, rfl, fails, given⟩
    · exact .inl ⟨among, fails, given⟩
  · rintro (⟨read, fails, given⟩ | ⟨rfl, rfl, fails, given⟩)
    · exact ⟨read.trans (List.prefix_append _ _), fails, given⟩
    · exact ⟨List.prefix_rfl, fails, given⟩

/-- Some reading of a path is the first to succeed, unless all of them fail. -/
theorem exists_isFirstReading (events : List Event) :
    FailsThroughout workspace structureName path events ∨
      ∃ earlier blocks,
        IsFirstReading workspace structureName path events earlier blocks := by
  induction events using List.reverseRecOn with
  | nil =>
      refine .inl fun earlier among => ?_
      simpa using List.prefix_nil.mp among
  | append_singleton events event induction =>
      rcases induction with fails | ⟨earlier, blocks, first⟩
      · cases given : readAfter workspace structureName path events with
        | error fault =>
            exact .inl (failsThroughout_append.mpr ⟨fails, fun _ => ⟨fault, given⟩⟩)
        | ok blocks =>
            by_cases reads : event = .read path
            · exact .inr ⟨events, blocks,
                isFirstReading_append.mpr (.inr ⟨reads, rfl, fails, given⟩)⟩
            · exact .inl (failsThroughout_append.mpr
                ⟨fails, fun same => absurd same reads⟩)
      · exact .inr ⟨earlier, blocks, isFirstReading_append.mpr (.inl first)⟩

/-! ## Steps -/

namespace Session

variable {session : Session}

theorem read_eq (path : String) :
    session.read path =
      match session.index.given session.workspace path with
      | .ok blocks =>
          (.ok blocks, { session with index := session.index.keep path blocks })
      | .error fault => (.error fault, session) := by
  have asked := SpecIndex.outcome_forest session.workspace path session.index
  rw [outcome] at asked
  rw [read, asked]
  cases session.index.given session.workspace path <;> rfl

theorem read_fst (path : String) :
    (session.read path).1 = session.index.given session.workspace path := by
  rw [read_eq]
  cases session.index.given session.workspace path <;> rfl

theorem workspace_step (session : Session) (event : Event) :
    (session.step event).workspace = session.workspace.after event := by
  cases event with
  | read path =>
      rw [step, read_eq]
      cases session.index.given session.workspace path <;> rfl
  | _ => rfl

theorem structureName_keep (index : SpecIndex) :
    (index.keep path blocks).structureName = index.structureName := by
  unfold SpecIndex.keep
  cases index.forests.lookup path <;> rfl

theorem structureName_step (session : Session) (event : Event) :
    (session.step event).index.structureName =
      session.index.structureName := by
  cases event with
  | read path =>
      rw [step, read_eq]
      cases session.index.given session.workspace path with
      | ok blocks => exact structureName_keep session.index
      | error fault => rfl
  | _ => rfl

/-- What is kept under a path changes when the path is read, and no sooner. -/
theorem lookup_step_of_ne (other : event ≠ .read path) :
    (session.step event).index.forests.lookup path =
      session.index.forests.lookup path := by
  cases event with
  | read path' =>
      have different : (path == path') = false :=
        beq_false_of_ne fun same => other (same ▸ rfl)
      rw [step, read_eq]
      cases session.index.given session.workspace path' with
      | error fault => rfl
      | ok blocks =>
          unfold SpecIndex.keep
          cases session.index.forests.lookup path' with
          | some kept => rfl
          | none => simp [List.lookup_cons, different]
  | _ => rfl

theorem lookup_step_read (path : String) :
    (session.step (.read path)).index.forests.lookup path =
      (session.index.given session.workspace path).toOption := by
  rw [step, read_eq]
  cases found : session.index.forests.lookup path with
  | some kept => simp [SpecIndex.given, SpecIndex.keep, found, Except.toOption]
  | none =>
      cases given : session.index.given session.workspace path with
      | error fault => exact found
      | ok blocks => simp [SpecIndex.keep, found, Except.toOption]

/-! ## Runs -/

theorem run_append (session : Session) (events : List Event) (event : Event) :
    session.run (events ++ [event]) = (session.run events).step event := by
  rw [run, List.foldl_append]
  rfl

theorem workspace_run (session : Session) (events : List Event) :
    (session.run events).workspace = session.workspace.afterAll events := by
  induction events generalizing session with
  | nil => rfl
  | cons event events induction =>
      rw [run, List.foldl_cons]
      refine (induction (session.step event)).trans ?_
      rw [workspace_step]
      rfl

theorem structureName_run (session : Session) (events : List Event) :
    (session.run events).index.structureName =
      session.index.structureName := by
  induction events generalizing session with
  | nil => rfl
  | cons event events induction =>
      rw [run, List.foldl_cons]
      exact (induction (session.step event)).trans (structureName_step _ _)

/-- What a run keeps under a path is what the first successful reading gave. -/
theorem lookup_run (workspace : Workspace) (structureName path : String)
    (events : List Event) :
    (FailsThroughout workspace structureName path events →
        ((start workspace structureName).run events).index.forests.lookup
          path = none) ∧
      ∀ earlier blocks,
        IsFirstReading workspace structureName path events earlier blocks →
        ((start workspace structureName).run events).index.forests.lookup
          path = some blocks := by
  induction events using List.reverseRecOn with
  | nil =>
      refine ⟨fun _ => rfl, fun earlier blocks first => ?_⟩
      simpa using List.prefix_nil.mp first.read
  | append_singleton events event induction =>
      rcases induction with ⟨unread, kept⟩
      have now : ∀ path, SpecIndex.readForest
          ((start workspace structureName).run events).workspace
          ((start workspace structureName).run events).index.structureName path =
            readAfter workspace structureName path events := by
        intro path
        rw [workspace_run, structureName_run]
        rfl
      rw [run_append]
      by_cases reads : event = .read path
      · rw [reads, lookup_step_read, SpecIndex.given]
        refine ⟨fun fails => ?_, fun earlier blocks first => ?_⟩
        · rcases failsThroughout_append.mp fails with ⟨fails, last⟩
          rcases last rfl with ⟨fault, failed⟩
          rw [unread fails, now, failed]
          rfl
        · rcases isFirstReading_append.mp first with
            first | ⟨-, -, fails, given⟩
          · rw [kept earlier blocks first]
            rfl
          · rw [unread fails, now, given]
            rfl
      · rw [lookup_step_of_ne reads]
        refine ⟨fun fails => unread (failsThroughout_append.mp fails).1,
          fun earlier blocks first => ?_⟩
        rcases isFirstReading_append.mp first with first | ⟨same, -⟩
        · exact kept earlier blocks first
        · exact absurd same reads

/-- A run gives for a path what was read first, or what stands there now. -/
theorem read_run_cases (workspace : Workspace) (structureName path : String)
    (events : List Event) :
    (FailsThroughout workspace structureName path events ∧
        (((start workspace structureName).run events).read path).1 =
          readAfter workspace structureName path events) ∨
      ∃ earlier blocks,
        IsFirstReading workspace structureName path events earlier blocks ∧
        (((start workspace structureName).run events).read path).1 =
          .ok blocks := by
  rcases lookup_run workspace structureName path events with ⟨unread, kept⟩
  rcases exists_isFirstReading events with fails | ⟨earlier, blocks, first⟩
  · refine .inl ⟨fails, ?_⟩
    rw [read_fst, SpecIndex.given, unread fails, workspace_run,
      structureName_run]
    rfl
  · refine .inr ⟨earlier, blocks, first, ?_⟩
    rw [read_fst, SpecIndex.given, kept earlier blocks first]

/-- A reading that fails changes nothing, so the next one tries again. -/
theorem read_snd_of_error {session : Session}
    (failed : (session.read path).1 = .error fault) :
    (session.read path).2 = session := by
  rw [read_fst] at failed
  rw [read_eq, failed]

/-- A reading gives what the first successful one gives, itself included. -/
theorem read_eq_ok_iff (workspace : Workspace) (structureName path : String)
    (events : List Event) (blocks : Option Forest) :
    (((start workspace structureName).run events).read path).1 = .ok blocks ↔
      ∃ earlier, IsFirstReading workspace structureName path
        (events ++ [.read path]) earlier blocks := by
  constructor
  · intro given
    rcases read_run_cases workspace structureName path events with
      ⟨fails, now⟩ | ⟨earlier, blocks', first, before⟩
    · exact ⟨events, isFirstReading_append.mpr
        (.inr ⟨rfl, rfl, fails, now.symm.trans given⟩)⟩
    · cases before.symm.trans given
      exact ⟨earlier, isFirstReading_append.mpr (.inl first)⟩
  · rintro ⟨earlier, first⟩
    have kept := (lookup_run workspace structureName path
      (events ++ [.read path])).2 earlier blocks first
    rw [run_append, lookup_step_read, ← read_fst] at kept
    cases given : (((start workspace structureName).run events).read path).1 with
    | ok blocks' =>
        rw [given] at kept
        cases kept
        rfl
    | error fault =>
        rw [given] at kept
        cases kept

/-- A reading fails if all before it failed and the document cannot be read
now. -/
theorem read_eq_error_iff (workspace : Workspace) (structureName path : String)
    (events : List Event) (fault : Fault) :
    (((start workspace structureName).run events).read path).1 =
        .error fault ↔
      FailsThroughout workspace structureName path events ∧
        readAfter workspace structureName path events = .error fault := by
  rcases read_run_cases workspace structureName path events with
    ⟨fails, now⟩ | ⟨earlier, blocks, first, before⟩
  · rw [now]
    exact (and_iff_right fails).symm
  · constructor
    · intro failed
      cases before.symm.trans failed
    · rintro ⟨fails, -⟩
      rcases fails earlier first.read with ⟨fault', failed⟩
      cases first.given.symm.trans failed

/-- Where the document reads as it did whenever it was read, nothing kept can
be told from what it holds now. -/
theorem read_of_steady
    (steady : ∀ earlier, earlier ++ [.read path] <+: events →
      readAfter workspace structureName path earlier =
        readAfter workspace structureName path events) :
    (((start workspace structureName).run events).read path).1 =
      readAfter workspace structureName path events := by
  rcases read_run_cases workspace structureName path events with
    ⟨-, now⟩ | ⟨earlier, blocks, first, before⟩
  · exact now
  · rw [before, ← steady earlier first.read, first.given]

/--
After any events an index gives for a path what the first successful reading
gave, this one included; it fails only if all readings of the path failed, and
then keeps what it had.  Whether a document is there is told from the files as
they are.  Where the document reads now as it did whenever it was read, the
index gives what the document holds now.
-/
theorem read_run (workspace : Workspace) (structureName path : String)
    (events : List Event) :
    let session := (start workspace structureName).run events
    session.finds path = (workspace.afterAll events).project.hasFile path ∧
      (∀ blocks, (session.read path).1 = .ok blocks ↔
        ∃ earlier, IsFirstReading workspace structureName path
          (events ++ [.read path]) earlier blocks) ∧
      (∀ fault, (session.read path).1 = .error fault ↔
        FailsThroughout workspace structureName path events ∧
          readAfter workspace structureName path events = .error fault) ∧
      (∀ fault, (session.read path).1 = .error fault →
        (session.read path).2 = session) ∧
      ((∀ earlier, earlier ++ [.read path] <+: events →
          readAfter workspace structureName path earlier =
            readAfter workspace structureName path events) →
        (session.read path).1 =
          readAfter workspace structureName path events) := by
  intro session
  refine ⟨?_, read_eq_ok_iff workspace structureName path events,
    read_eq_error_iff workspace structureName path events,
    fun _ => read_snd_of_error, read_of_steady⟩
  rw [finds, workspace_run]
  rfl

end Session

end SpecAudit.Audit

import SpecAudit.Proofs.Path.Exclusion
import SpecAudit.Proofs.Project.Lookup

/-!
# Where a search gets stuck

A search asks its patterns about every directory that it may enter and about
every file that it looks for.  It fails exactly if it comes to an entry about
which the patterns cannot be asked: in the directory where it begins, or in one
that it enters because the patterns do not leave it out.
-/

namespace SpecAudit.Project

open SpecAudit.Path (PatternFault)

namespace Search

/-- Whether the patterns of a search cannot be asked about an entry that it
comes to. -/
inductive GetsStuck (search : Search) : Place → Place → Entry → Prop
  | atDirectory {shown place : Place} {entries : List (String × Entry)}
      {name : String} {entry : Entry} (listed : (name, entry) ∈ entries)
      (leads : search.leadsToDirectory place entry = true)
      (fails : Fails (Path.skipsDirectory search.exclusions name
        (pathIn (search.project.wayTo shown) name))) :
      GetsStuck search shown place (.directory entries)
  | atFile {shown place : Place} {entries : List (String × Entry)}
      {name : String} {entry : Entry} (listed : (name, entry) ∈ entries)
      (isFile : search.leadsToDirectory place entry = false)
      (wanted : search.hasEnding name = true)
      (fails : Fails (Path.anyExcludes search.exclusions
        (search.project.wayTo (shown ++ [name])))) :
      GetsStuck search shown place (.directory entries)
  | inside {shown place : Place} {entries : List (String × Entry)}
      {name : String} {entry : Entry} (listed : (name, entry) ∈ entries)
      (kept : Path.skipsDirectory search.exclusions name
        (pathIn (search.project.wayTo shown) name) = .ok false)
      (stuck : GetsStuck search (shown ++ [name]) (place ++ [name]) entry) :
      GetsStuck search shown place (.directory entries)

variable {search : Search} {shown place : Place} {entry : Entry}
variable {entries : List (String × Entry)} {names : List String}

theorem GetsStuck.leadsToDirectory (stuck : search.GetsStuck shown place entry)
    (from' : Place) : search.leadsToDirectory from' entry = true := by
  cases stuck <;> rfl

theorem fails_entered_iff :
    Fails (search.entered shown place entries) ↔
      ∃ item ∈ entries, search.leadsToDirectory place item.2 = true ∧
        Fails (Path.skipsDirectory search.exclusions item.1
          (pathIn (search.project.wayTo shown) item.1)) := by
  induction entries with
  | nil => simp [entered]
  | cons first rest induction =>
      rcases first with ⟨name, entry⟩
      have others (skipped : Bool) :
          Fails (do
            let names ← search.entered shown place rest
            pure (if skipped then names else name :: names)) ↔
            Fails (search.entered shown place rest) :=
        fails_bind_pure_iff
      rw [entered, List.exists_mem_cons_iff, ← induction]
      dsimp only
      split
      · rename_i leads
        rw [fails_bind_iff_or fun skipped _ => others skipped]
        simp only [leads, true_and]
      · rename_i passed
        rw [pure_bind, others]
        simp [passed]

theorem mem_entered_iff (found : search.entered shown place entries = .ok names)
    (name : String) :
    name ∈ names ↔ ∃ item ∈ entries, item.1 = name ∧
      search.leadsToDirectory place item.2 = true ∧
      Path.skipsDirectory search.exclusions item.1
        (pathIn (search.project.wayTo shown) item.1) = .ok false := by
  induction entries generalizing names with
  | nil =>
      cases found
      simp
  | cons first rest induction =>
      rcases first with ⟨own, entry⟩
      rw [entered] at found
      rw [List.exists_mem_cons_iff]
      split at found
      · rename_i leads
        rcases exists_of_bind_eq_ok found with ⟨skipped, asked, found⟩
        rcases exists_of_bind_eq_ok found with ⟨others, rests, found⟩
        cases found
        rw [← induction rests]
        cases skipped <;> simp [leads, asked, eq_comm]
      · rename_i passed
        rw [pure_bind] at found
        rcases exists_of_bind_eq_ok found with ⟨others, rests, found⟩
        cases found
        rw [← induction rests]
        simp [passed]

theorem fails_ownFiles_iff :
    Fails (search.ownFiles shown place entries) ↔
      ∃ item ∈ entries, search.leadsToDirectory place item.2 = false ∧
        search.hasEnding item.1 = true ∧
        Fails (Path.anyExcludes search.exclusions
          (search.project.wayTo (shown ++ [item.1]))) := by
  induction entries with
  | nil => simp [ownFiles]
  | cons first rest induction =>
      rcases first with ⟨name, entry⟩
      have others (left : Bool) :
          Fails (do
            let paths ← search.ownFiles shown place rest
            pure (if left then paths
              else search.project.wayTo (shown ++ [name]) :: paths)) ↔
            Fails (search.ownFiles shown place rest) :=
        fails_bind_pure_iff
      rw [ownFiles, List.exists_mem_cons_iff, ← induction]
      dsimp only
      split
      · rename_i wanted
        rw [Bool.and_eq_true, Bool.not_eq_true'] at wanted
        rw [fails_bind_iff_or fun left _ => others left]
        simp only [wanted, true_and]
      · rename_i unwanted
        rw [pure_bind, others]
        simp only [Bool.and_eq_true, Bool.not_eq_true', not_and] at unwanted
        exact ⟨.inr, fun either => either.resolve_left
          fun ⟨isFile, wanted, _⟩ => unwanted isFile wanted⟩

mutual

/-- A search below an entry fails exactly if it gets stuck. -/
theorem fails_filesBelow_iff (search : Search) (shown place : Place)
    (entry : Entry) :
    Fails (search.filesBelow shown place entry) ↔
      search.GetsStuck shown place entry := by
  cases entry with
  | directory entries =>
      rw [filesBelow]
      constructor
      · rw [fails_bind_iff]
        rintro (fails | ⟨names, entered, fails⟩)
        · rcases fails_entered_iff.mp fails with ⟨item, listed, leads, fails⟩
          exact .atDirectory listed leads fails
        · rw [fails_bind_iff_or fun own _ => fails_bind_pure_iff] at fails
          rcases fails with fails | fails
          · rcases fails_ownFiles_iff.mp fails with
              ⟨item, listed, isFile, wanted, fails⟩
            exact .atFile listed isFile wanted fails
          · rw [fails_filesOf_iff] at fails
            rcases fails with ⟨item, listed, among, stuck⟩
            -- The patterns are asked about the name, so the answer is the same
            -- for every entry that has it.
            rcases (mem_entered_iff entered item.1).mp among with
              ⟨other, -, same, -, kept⟩
            rw [same] at kept
            exact .inside listed kept stuck
      · intro stuck
        cases asked : search.entered shown place entries with
        | error fault => exact ⟨fault, rfl⟩
        | ok names =>
            refine fails_bind_iff.mpr (.inr ⟨names, rfl, ?_⟩)
            rw [fails_bind_iff_or fun own _ => fails_bind_pure_iff,
              fails_filesOf_iff]
            cases stuck with
            | atDirectory listed leads fails =>
                have fails := fails_entered_iff.mpr ⟨_, listed, leads, fails⟩
                rw [asked] at fails
                exact absurd fails (not_fails_ok names)
            | atFile listed isFile wanted fails =>
                exact .inl (fails_ownFiles_iff.mpr
                  ⟨_, listed, isFile, wanted, fails⟩)
            | inside listed kept stuck =>
                exact .inr ⟨_, listed, (mem_entered_iff asked _).mpr
                  ⟨_, listed, rfl, stuck.leadsToDirectory place, kept⟩, stuck⟩
  | file | link | closedFile | closedDirectory =>
      exact ⟨fun fails => absurd fails (not_fails_ok []), nofun⟩

theorem fails_filesOf_iff (search : Search) (names : List String)
    (shown place : Place) (entries : List (String × Entry)) :
    Fails (search.filesOf names shown place entries) ↔
      ∃ item ∈ entries, item.1 ∈ names ∧
        search.GetsStuck (shown ++ [item.1]) (place ++ [item.1]) item.2 := by
  cases entries with
  | nil => simp [filesOf]
  | cons first rest =>
      rcases first with ⟨name, entry⟩
      have others (files : List String) :
          Fails (do
            let more ← search.filesOf names shown place rest
            pure (files ++ more)) ↔
            Fails (search.filesOf names shown place rest) :=
        fails_bind_pure_iff
      rw [filesOf, List.exists_mem_cons_iff,
        ← fails_filesOf_iff search names shown place rest,
        ← fails_filesBelow_iff search (shown ++ [name]) (place ++ [name]) entry]
      split
      · rename_i among
        rw [fails_bind_iff_or fun files _ => others files]
        simp only [List.contains_iff_mem] at among
        simp only [among, true_and]
      · rename_i apart
        rw [pure_bind, others]
        simp only [List.contains_iff_mem] at apart
        simp only [apart, false_and, false_or]

end

/-- Where every pattern is a text, no search gets stuck. -/
theorem not_getsStuck (texts : ∀ pattern ∈ search.exclusions,
      ∃ text, pattern = .str text) :
    ¬ search.GetsStuck shown place entry := by
  have askable {before after : List Json} {pattern : Json} {path : String}
      (listed : search.exclusions = before ++ pattern :: after) :
      ¬ Path.IsUnaskable path pattern := by
    rcases texts pattern (by simp [listed]) with ⟨text, rfl⟩
    exact id
  intro stuck
  induction stuck with
  | atDirectory listed leads fails =>
      rcases Path.fails_skipsDirectory_iff.mp fails with
        ⟨-, before, pattern, after, among, -, unaskable⟩
      exact askable among unaskable
  | atFile listed isFile wanted fails =>
      rcases Path.fails_anyExcludes_iff.mp fails with
        ⟨before, pattern, after, among, -, unaskable⟩
      exact askable among unaskable
  | inside listed kept stuck induction => exact induction

end Search

/-- Finding the files in a directory fails exactly if the search gets stuck. -/
theorem fails_filesIn_iff (search : Search) (names : List String) :
    Fails (search.filesIn names) ↔
      ∃ place entry, reach search.project.disk names = .ok (.present place) ∧
        search.project.disk.at? place = some entry ∧
        search.GetsStuck (lexically [] names) place entry := by
  unfold Search.filesIn
  split
  · rename_i place reached
    simp only [reached, Except.ok.injEq, Reached.present.injEq,
      exists_and_left, exists_eq_left']
    split
    · rename_i entry found
      rw [fails_bind_pure_iff, Search.fails_filesBelow_iff]
      simp [found]
    · rename_i absent
      simp [absent]
  · rename_i elsewhere
    refine ⟨fun fails => absurd fails (not_fails_pure _), ?_⟩
    rintro ⟨place, entry, reached, -, -⟩
    exact absurd reached (elsewhere place)

/-- Finding files fails exactly if the path cannot be looked up, or leads to
where the search gets stuck. -/
theorem fails_findFiles_iff {project : Project} {path : String}
    {endings : List String} {exclusions : List Json} :
    Fails (findFiles project path endings exclusions) ↔
      Fails (project.hasFile path) ∨
      ∃ place entry, reach project.disk (project.names path) =
          .ok (.present place) ∧
        project.disk.at? place = some entry ∧
        (Search.mk project endings exclusions).GetsStuck
          (lexically [] (project.names path)) place entry := by
  rw [findFiles_eq]
  cases asked : project.hasFile path with
  | error fault => simp
  | ok isFile =>
      cases isFile with
      | false =>
          have stuck_iff := fails_filesIn_iff
            (Search.mk project endings exclusions) (project.names path)
          rw [← stuck_iff]
          simp
      | true =>
          simp only [not_fails_ok, false_or, false_iff, not_exists, not_and]
          -- A search gets stuck in directories alone.
          intro place entry reached found stuck
          have isFile := asked.symm.trans (hasFile_of_reach reached)
          rw [found] at isFile
          cases stuck <;> cases isFile

end SpecAudit.Project

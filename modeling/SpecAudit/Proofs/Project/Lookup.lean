import SpecAudit.Project.Discovery
import SpecAudit.Proofs.Attempt
import SpecAudit.Proofs.Project.Disk

/-!
# Paths that are looked up

A path that is looked up leads to an entry or to none, or it cannot be looked
up.  The last is the case only if a name or the path is too long, or if a
directory on the way may not be entered.
-/

namespace SpecAudit.Project

variable {top : Entry} {names : List String} {place : Place}
variable {project : Project} {path : String}

/-! ## Disks where every short path can be looked up -/

/-- Whether a disk holds files and directories alone, all of which may be
entered. -/
def Entry.IsOrdinary (top : Entry) : Prop :=
  ∀ place entry, top.at? place = some entry →
    entry ≠ .closedDirectory ∧ ∀ target, entry ≠ .link target

/-- Whether names from the top, and the path that they spell, are short enough
to be looked up. -/
structure IsShort (names : List String) : Prop where
  each : ∀ name ∈ names, nameBytes name ≤ maxNameBytes
  whole : pathBytes names ≤ maxPathBytes

/-- On such a disk, names that are short lead to an entry or to none. -/
theorem saysAbsent_of_walk
    {next : Place → List String → Except DiskFault Reached} {fault : DiskFault}
    (ordinary : top.IsOrdinary)
    (short : ∀ name ∈ names, nameBytes name ≤ maxNameBytes)
    (failed : walk top next place names = .error fault) :
    fault.saysAbsent = true := by
  induction names generalizing place with
  | nil => cases failed
  | cons name rest induction =>
      rcases List.forall_mem_cons.mp short with ⟨own, others⟩
      rw [walk] at failed
      split at failed
      · split at failed
        · exact induction others failed
        · split at failed
          · rename_i target found
            exact absurd rfl ((ordinary _ _ found).2 target)
          · exact induction others failed
          · rw [walkOff, if_neg (Nat.not_lt_of_le own)] at failed
            split at failed
            · cases failed
            · cases failed
              rfl
      · rename_i found
        exact absurd rfl (ordinary _ _ found).1
      · cases failed
        rfl
      · cases failed
        rfl

theorem exists_lookUp (ordinary : top.IsOrdinary) (short : IsShort names) :
    ∃ found, lookUp top names = .ok found := by
  unfold lookUp
  split
  · exact ⟨_, rfl⟩
  · exact ⟨_, rfl⟩
  · rename_i fault failed
    rw [reach, if_neg (Nat.not_lt_of_le short.whole)] at failed
    rw [if_pos (saysAbsent_of_walk ordinary short.each failed)]
    exact ⟨_, rfl⟩

theorem exists_hasFile (ordinary : project.disk.IsOrdinary)
    (short : IsShort (project.names path)) :
    ∃ isFile, project.hasFile path = .ok isFile := by
  rcases exists_lookUp ordinary short with ⟨found, looked⟩
  exact ⟨_, by rw [hasFile, looked]; rfl⟩

/-! ## What a path leads to -/

theorem lookUp_of_reach (reached : reach top names = .ok (.present place)) :
    lookUp top names = .ok (top.at? place) := by
  rw [lookUp, reached]

theorem hasFile_of_reach
    (reached :
      reach project.disk (project.names path) = .ok (.present place)) :
    project.hasFile path =
      .ok ((project.disk.at? place).any Entry.isFile) := by
  rw [hasFile, lookUp_of_reach reached]
  rfl

/-- A path that leads to a file leads to the place of one. -/
theorem exists_reach_of_hasFile (isFile : project.hasFile path = .ok true) :
    ∃ place,
      reach project.disk (project.names path) = .ok (.present place) ∧
        (project.disk.at? place).any Entry.isFile = true := by
  rcases exists_of_map_eq_ok isFile with ⟨found, looked, isFile⟩
  unfold lookUp at looked
  split at looked
  · rename_i place reached
    cases looked
    exact ⟨place, reached, isFile⟩
  · cases looked
    cases isFile
  · split at looked
    · cases looked
      cases isFile
    · cases looked

/-- A path is looked up before files are found below it. -/
theorem findFiles_eq (project : Project) (path : String)
    (endings : List String) (exclusions : List Json) :
    findFiles project path endings exclusions =
      match project.hasFile path with
      | .error fault => .error (.path fault)
      | .ok true => .ok [project.wayTo (lexically [] (project.names path))]
      | .ok false => ((Search.mk project endings exclusions).filesIn
          (project.names path)).mapError .pattern := by
  unfold findFiles
  cases project.hasFile path with
  | error fault => rfl
  | ok isFile => cases isFile <;> rfl

theorem findFiles_of_error {fault : DiskFault}
    (refused : project.hasFile path = .error fault) (endings : List String)
    (exclusions : List Json) :
    findFiles project path endings exclusions = .error (.path fault) := by
  rw [findFiles_eq, refused]

/-- A search from the top of the disk gives what it finds, if that is in order
already. -/
theorem findFiles_top {entries : List (String × Entry)}
    {endings files : List String} {exclusions : List Json}
    (below : (Search.mk ⟨.directory entries, []⟩ endings exclusions).filesBelow
      [] [] (.directory entries) = .ok files)
    (sorted : files.Pairwise fun left right => !(right < left)) :
    findFiles ⟨.directory entries, []⟩ "." endings exclusions = .ok files := by
  have searched : findFiles ⟨.directory entries, []⟩ "." endings exclusions =
      (do
        let files ← (Search.mk ⟨.directory entries, []⟩ endings
          exclusions).filesBelow [] [] (.directory entries)
        return files.mergeSort fun left right =>
          !(right < left)).mapError .pattern :=
    rfl
  rw [searched, below]
  exact congrArg Except.ok (List.mergeSort_of_pairwise sorted)

end SpecAudit.Project

import SpecAudit.Proofs.Path.Exclusion
import SpecAudit.Proofs.Project.Lookup

/-!
# What a search finds

A search whose patterns are texts does not fail.  The files that it finds lie
on ways below the entry where it begins, each of them on one way.  So no file is
found twice, and files are shown by the ways to them from the project.
-/

namespace SpecAudit.Project

open SpecAudit.Path (PatternFault)

namespace Search

variable {search : Search} {patterns : List String}

/-- Whether a search comes to files on some of the ways below a place. -/
def Finds (search : Search) (shown : Place)
    (result : Except PatternFault (List String)) (routes : List Place) : Prop :=
  ∃ found : List Place,
    result =
        .ok (found.map fun route => search.project.wayTo (shown ++ route)) ∧
      found.Sublist routes

section Texts

variable (texts : search.exclusions = patterns.map .str)

include texts

theorem exists_entered (shown place : Place)
    (entries : List (String × Entry)) :
    ∃ names, search.entered shown place entries = .ok names := by
  induction entries with
  | nil => exact ⟨[], rfl⟩
  | cons first rest induction =>
      rcases first with ⟨name, entry⟩
      rcases induction with ⟨names, others⟩
      rw [entered, texts, others, Path.skipsDirectory_texts]
      split <;> exact ⟨_, rfl⟩

theorem finds_ownFiles (shown place : Place)
    (entries : List (String × Entry)) :
    search.Finds shown (search.ownFiles shown place entries)
      (entries.map fun item => [item.1]) := by
  induction entries with
  | nil => exact ⟨[], rfl, .slnil⟩
  | cons first rest induction =>
      rcases first with ⟨name, entry⟩
      rcases induction with ⟨found, others, fewer⟩
      have decided : ∃ left : Bool,
          search.ownFiles shown place ((name, entry) :: rest) =
            .ok ((if left then found else [name] :: found).map
              fun route => search.project.wayTo (shown ++ route)) := by
        rw [ownFiles, texts, others, Path.anyExcludes_texts]
        split
        · generalize patterns.any _ = left
          refine ⟨left, ?_⟩
          cases left <;> rfl
        · exact ⟨true, rfl⟩
      rcases decided with ⟨left, decided⟩
      refine ⟨_, decided, ?_⟩
      split
      · exact fewer.cons _
      · exact fewer.cons_cons _

omit texts

mutual

theorem finds_filesBelow (texts : search.exclusions = patterns.map .str)
    (shown place : Place) (entry : Entry) :
    search.Finds shown (search.filesBelow shown place entry)
      entry.routes := by
  cases entry with
  | directory entries =>
      rcases exists_entered texts shown place entries with ⟨names, enters⟩
      rcases finds_ownFiles texts shown place entries with
        ⟨own, ownFound, fewer⟩
      rcases finds_filesOf texts names shown place entries with
        ⟨nested, nestedFound, fewer'⟩
      refine ⟨own ++ nested, ?_, fewer.append fewer'⟩
      simp only [filesBelow, bind, Except.bind, enters, ownFound, nestedFound,
        List.map_append]
      rfl
  | _ => exact ⟨[], rfl, .slnil⟩

theorem finds_filesOf (texts : search.exclusions = patterns.map .str)
    (names : List String) (shown place : Place)
    (entries : List (String × Entry)) :
    search.Finds shown (search.filesOf names shown place entries)
      (Entry.routes.nested entries) := by
  cases entries with
  | nil => exact ⟨[], rfl, .slnil⟩
  | cons first rest =>
      rcases first with ⟨name, entry⟩
      rcases finds_filesOf texts names shown place rest with
        ⟨others, othersFound, fewer⟩
      rcases finds_filesBelow texts (shown ++ [name]) (place ++ [name]) entry
        with ⟨found, belowFound, fewer'⟩
      have decided : ∃ below : List Place,
          below.Sublist (entry.routes.map (name :: ·)) ∧
            search.filesOf names shown place ((name, entry) :: rest) =
              .ok ((below ++ others).map
                fun route => search.project.wayTo (shown ++ route)) := by
        rw [filesOf, othersFound, belowFound]
        split
        · refine ⟨found.map (name :: ·), fewer'.map _, ?_⟩
          rw [List.map_append, List.map_map]
          simp only [List.append_assoc, List.singleton_append]
          rfl
        · exact ⟨[], List.nil_sublist _, rfl⟩
      rcases decided with ⟨below, fewer', decided⟩
      exact ⟨_, decided, fewer'.append fewer⟩

end

end Texts

end Search

/-! ## Files -/

/--
Whether files are shown by the ways to places from the project.  On a disk that
is well-formed these are different places with names of entries.
-/
structure Shows (project : Project) (places : List Place)
    (files : List String) : Prop where
  ways : files.Perm (places.map project.wayTo)
  distinct : project.disk.WellFormed → places.Nodup
  named : project.disk.WellFormed →
    ∀ place ∈ places, ∀ name ∈ place, IsName name

namespace Shows

variable {project : Project} {places : List Place} {files : List String}

theorem nothing : project.Shows [] [] :=
  ⟨.refl _, by simp, by simp⟩

variable (shows : project.Shows places files)
variable (wellFormed : project.disk.WellFormed)

include shows wellFormed

/-- No two files are shown alike. -/
theorem nodup : files.Nodup := by
  rw [shows.ways.nodup_iff]
  refine (shows.distinct wellFormed).map_on ?_
  intro place member place' member' same
  exact eq_of_wayTo_eq (shows.named wellFormed place member)
    (shows.named wellFormed place' member') same

theorem exists_way {file : String} (member : file ∈ files) :
    ∃ place : Place, (∀ name ∈ place, IsName name) ∧
      project.wayTo place = file := by
  rcases List.mem_map.mp (shows.ways.subset member) with ⟨place, member, way⟩
  exact ⟨place, shows.named wellFormed place member, way⟩

theorem isAbsolute {file : String} (member : file ∈ files) :
    isAbsolute file = false := by
  rcases shows.exists_way wellFormed member with ⟨place, named, rfl⟩
  exact isAbsolute_wayTo named

theorem normalized {file : String} (member : file ∈ files) :
    Path.normalized file = file := by
  rcases shows.exists_way wellFormed member with ⟨place, named, rfl⟩
  exact normalized_wayTo named

end Shows

/-- A search whose patterns are texts comes to files. -/
theorem exists_filesIn (project : Project)
    (names endings patterns : List String) :
    ∃ files places,
      (Search.mk project endings (patterns.map .str)).filesIn names =
          .ok files ∧
        project.Shows places files := by
  unfold Search.filesIn
  split
  · rename_i place reached
    split
    · rename_i entry stands
      have searched : (Search.mk project endings (patterns.map .str)).Finds
          (lexically [] names) _ entry.routes :=
        Search.finds_filesBelow rfl _ place entry
      rcases searched with ⟨found, finds, fewer⟩
      rw [finds]
      refine ⟨_, found.map (lexically [] names ++ ·), rfl, ?_, ?_, ?_⟩
      · rw [List.map_map]
        exact List.mergeSort_perm _ _
      · intro wellFormed
        have below := (wellFormed.of_at? stands).1
        exact (fewer.nodup below.nodup_routes).map
          (List.append_right_injective _)
      · intro wellFormed place member name among
        have below := (wellFormed.of_at? stands).1
        rcases List.mem_map.mp member with ⟨route, isFound, rfl⟩
        rcases List.mem_append.mp among with among | among
        · exact isName_of_reach wellFormed reached name among
        · exact below.isName_of_mem_routes route (fewer.subset isFound) name
            among
    · exact ⟨[], [], rfl, .nothing⟩
  · exact ⟨[], [], rfl, .nothing⟩

/-- What a path that can be looked up leads to is found, where the patterns are
texts. -/
theorem exists_findFiles {project : Project} {path : String} {isFile : Bool}
    (asked : project.hasFile path = .ok isFile)
    (endings patterns : List String) :
    ∃ files places,
      findFiles project path endings (patterns.map .str) = .ok files ∧
        project.Shows places files := by
  rw [findFiles_eq, asked]
  cases isFile with
  | true =>
      refine ⟨_, [lexically [] (project.names path)], rfl, .refl _, by simp, ?_⟩
      intro wellFormed
      rcases exists_reach_of_hasFile asked with ⟨place, reached, -⟩
      simpa using isName_of_reach wellFormed reached
  | false =>
      rcases exists_filesIn project (project.names path) endings patterns with
        ⟨files, places, found, shows⟩
      refine ⟨files, places, ?_, shows⟩
      dsimp only
      rw [found]
      rfl

end SpecAudit.Project

import Mathlib.Data.List.Sort
import Mathlib.Data.String.Basic
import SpecAudit.Proofs.Project.Reorder

/-!
# Files below a directory of the project

Searching a directory of the project lists the files below it in order, each of
them once: those that searched directories lead to, that have one of the
endings, and that no pattern leaves out.  Patterns merely filter the files that
are found without them, although they also keep the search from entering
directories, and the order in which directories are listed plays no part.
-/

namespace SpecAudit.Project

/-- Whether a path leads to a directory that is shown below the project. -/
structure LeadsInside (project : Project) (path : String)
    (place steps : Place) : Prop where
  reached : reach project.disk (project.names path) = .ok (.present place)
  stands : ∃ entries, project.disk.at? place = some (.directory entries)
  inside : lexically [] (project.names path) = project.root ++ steps

/--
Whether a file is found below a place that is shown by steps from the project:
searched directories lead to it, it has one of the endings, and no pattern
leaves it out.
-/
def IsFoundBelow (project : Project) (place steps : Place)
    (endings patterns : List String) (file : String) : Prop :=
  ∃ route name,
    (Search.mk project endings []).LeadsToFile place route name ∧
      file = String.intercalate "/" (steps ++ route ++ [name]) ∧
      ∀ pattern ∈ patterns, Path.isExcludedBy pattern file = false

theorem isFoundBelow_iff {project : Project} {place steps : Place}
    {endings patterns : List String} {file : String} :
    project.IsFoundBelow place steps endings patterns file ↔
      project.IsFoundBelow place steps endings [] file ∧
        (patterns.all fun pattern => !Path.isExcludedBy pattern file) =
          true := by
  rw [List.all_eq_true]
  constructor
  · rintro ⟨route, name, leads, shown, kept⟩
    exact ⟨⟨route, name, leads, shown, by simp⟩, by simpa using kept⟩
  · rintro ⟨⟨route, name, leads, shown, -⟩, kept⟩
    exact ⟨route, name, leads, shown, by simpa using kept⟩

theorem sortedLE_mergeSort (files : List String) :
    (files.mergeSort fun left right => !(right < left)).SortedLE := by
  have trans (first second third : String) :
      (!decide (second < first)) = true → (!decide (third < second)) = true →
        (!decide (third < first)) = true := by
    simp only [Bool.not_eq_true', decide_eq_false_iff_not, not_lt]
    exact le_trans
  have total (left right : String) :
      (!decide (right < left) || !decide (left < right)) = true := by
    simp only [Bool.or_eq_true, Bool.not_eq_true', decide_eq_false_iff_not,
      not_lt]
    exact le_total left right
  refine (List.Pairwise.imp ?_
    (List.pairwise_mergeSort trans total files)).sortedLE
  simp only [Bool.not_eq_true', decide_eq_false_iff_not, not_lt, imp_self,
    implies_true]

namespace LeadsInside

variable {project : Project} {path : String} {place steps : Place}

theorem isName (leads : project.LeadsInside path place steps)
    (wellFormed : project.disk.WellFormed) :
    ∀ name ∈ steps, IsName name := by
  intro name member
  apply isName_of_reach wellFormed leads.reached
  rw [leads.inside]
  exact List.mem_append_right _ member

/-- The path is looked up, and it leads to no file. -/
theorem hasFile_eq (leads : project.LeadsInside path place steps) :
    project.hasFile path = .ok false := by
  rcases leads.stands with ⟨entries, stands⟩
  rw [hasFile_of_reach leads.reached, stands]
  rfl

theorem findFiles_eq (leads : project.LeadsInside path place steps)
    {entry : Entry} (stands : project.disk.at? place = some entry)
    {endings : List String} {exclusions : List Json} {files : List String}
    (found : (Search.mk project endings exclusions).filesBelow
      (project.root ++ steps) place entry = .ok files) :
    findFiles project path endings exclusions =
      .ok (files.mergeSort fun left right => !(right < left)) := by
  rw [Project.findFiles_eq, leads.hasFile_eq]
  dsimp only
  unfold Search.filesIn
  rw [leads.reached, leads.inside]
  dsimp only
  rw [stands]
  dsimp only
  rw [found]
  rfl

/-- The files below a directory of the project, in order. -/
theorem exists_findFiles (leads : project.LeadsInside path place steps)
    (wellFormed : project.disk.WellFormed) (endings patterns : List String) :
    ∃ files,
      findFiles project path endings (patterns.map .str) = .ok files ∧
        files.SortedLT ∧
        ∀ file, file ∈ files ↔
          project.IsFoundBelow place steps endings patterns file := by
  rcases leads.stands with ⟨entries, stands⟩
  let search : Search := ⟨project, endings, patterns.map .str⟩
  have texts : search.exclusions = patterns.map .str := rfl
  rcases Search.exists_filesBelow_mem_iff texts (wellFormed.of_at? stands).1
    (leads.isName wellFormed) stands with ⟨found, below, member⟩
  have kept (route : Place) (name : String) :
      search.LeadsToFile place route name ↔
        (Search.mk project endings []).LeadsToFile place route name :=
    leadsToFile_iff_of_alike search ⟨project, endings, []⟩ (fun _ => rfl) rfl
  have sorted := leads.findFiles_eq stands below
  rcases Project.exists_findFiles leads.hasFile_eq endings patterns with
    ⟨files, places, whole, shows⟩
  have same := sorted.symm.trans whole
  injection same with same
  refine ⟨files, whole, ?_, fun file => ?_⟩
  · rw [← same]
    apply (sortedLE_mergeSort found).sortedLT_of_nodup
    rw [same]
    exact shows.nodup wellFormed
  · rw [← same, (List.mergeSort_perm _ _).mem_iff, member]
    constructor
    · rintro ⟨route, name, leads, isKept, rfl⟩
      exact ⟨route, name, (kept route name).mp leads, rfl, isKept⟩
    · rintro ⟨route, name, leads, rfl, isKept⟩
      exact ⟨route, name, (kept route name).mpr leads, isKept, rfl⟩

/-- The path leads to the same place on a disk that is alike. -/
theorem of_alike (leads : project.LeadsInside path place steps) {disk : Entry}
    (alike : project.disk.Alike disk) :
    LeadsInside ⟨disk, project.root⟩ path place steps where
  reached := (alike.reach_eq _).symm.trans leads.reached
  stands := by
    rcases leads.stands with ⟨entries, stands⟩
    rcases alike.exists_at? stands with ⟨other, there, faces⟩
    cases other with
    | directory others => exact ⟨others, there⟩
    | _ => cases faces
  inside := leads.inside

end LeadsInside

theorem isFoundBelow_iff_of_alike {project : Project} {disk : Entry}
    (alike : project.disk.Alike disk) {place steps : Place}
    {endings patterns : List String} {file : String} :
    project.IsFoundBelow place steps endings patterns file ↔
      IsFoundBelow ⟨disk, project.root⟩ place steps endings patterns file := by
  unfold IsFoundBelow
  have same (route : Place) (name : String) :
      (Search.mk project endings []).LeadsToFile place route name ↔
        (Search.mk ⟨disk, project.root⟩ endings []).LeadsToFile place route
          name :=
    leadsToFile_iff_of_alike ⟨project, endings, []⟩
      ⟨⟨disk, project.root⟩, endings, []⟩ alike rfl
  simp only [same]

/--
A search of a directory of the project comes to the files below it that are
found with the patterns, in order and each once.  These are the files that are
found without patterns, except those that a pattern leaves out, and they are the
same however the directories are listed.
-/
theorem findFiles_eq_filter {project : Project} {path : String}
    {place steps : Place} (wellFormed : project.disk.WellFormed)
    (leads : project.LeadsInside path place steps)
    (endings patterns : List String) :
    ∃ files all,
      findFiles project path endings (patterns.map .str) = .ok files ∧
      findFiles project path endings [] = .ok all ∧
      files.SortedLT ∧
      (∀ file, file ∈ files ↔
        project.IsFoundBelow place steps endings patterns file) ∧
      files = (all.filter fun file =>
        patterns.all fun pattern => !Path.isExcludedBy pattern file) ∧
      ∀ disk, project.disk.Reordered disk →
        findFiles ⟨disk, project.root⟩ path endings (patterns.map .str) =
          .ok files := by
  rcases leads.exists_findFiles wellFormed endings patterns with
    ⟨files, found, sorted, member⟩
  rcases leads.exists_findFiles wellFormed endings [] with
    ⟨all, foundAll, sortedAll, memberAll⟩
  refine ⟨files, all, found, foundAll, sorted, member, ?_, ?_⟩
  · have filtered : (all.filter fun file => patterns.all fun pattern =>
        !Path.isExcludedBy pattern file).SortedLT :=
      (sortedAll.pairwise.filter _).sortedLT
    apply sorted.eq_of_mem_iff filtered
    intro file
    rw [member, isFoundBelow_iff, List.mem_filter, memberAll]
  · intro disk reordered
    have alike := reordered.alike wellFormed
    rcases (leads.of_alike alike).exists_findFiles
      (reordered.wellFormed wellFormed) endings patterns with
      ⟨others, found', sorted', member'⟩
    rw [found']
    congr 1
    apply sorted'.eq_of_mem_iff sorted
    intro file
    rw [member', member, isFoundBelow_iff_of_alike alike]

/-- A project whose sources stand below a directory that is never searched. -/
def panelProject : Project where
  disk := .directory [("shop", .directory [("tmp", .directory [("app",
    .directory [
      ("vendor", .directory [("kit.rb", .file .empty)]),
      ("here", .link "."),
      ("user.rb", .file .empty),
      ("admin", .directory [("panel.rb", .file .empty)])])])])]
  root := ["shop"]

/-- What is searched lies below that directory, and a pattern leaves out a part. -/
theorem findFiles_eq_filter_panel :
    panelProject.disk.WellFormed ∧
      panelProject.LeadsInside "tmp/app" ["shop", "tmp", "app"]
        ["tmp", "app"] ∧
      ∃ files,
        findFiles panelProject "tmp/app" [".rb"] [.str "adm*"] = .ok files ∧
          "tmp/app/user.rb" ∈ files ∧ "tmp/app/admin/panel.rb" ∉ files := by
  have alone {name : String} {entry : Entry} (isName : IsName name)
      (wellFormed : entry.WellFormed) :
      (Entry.directory [(name, entry)]).WellFormed :=
    .directory _ (by simpa using isName) (by simp) (by simpa using wellFormed)
  have wellFormed : panelProject.disk.WellFormed := by
    refine alone (by decide) (alone (by decide) (alone (by decide) ?_))
    refine .directory _ (by decide) (by decide) ?_
    simp only [List.forall_mem_cons]
    exact ⟨alone (by decide) (.file _), .link _, .file _,
      alone (by decide) (.file _), by simp⟩
  have leads : panelProject.LeadsInside "tmp/app" ["shop", "tmp", "app"]
      ["tmp", "app"] :=
    ⟨rfl, ⟨_, rfl⟩, by decide⟩
  rcases findFiles_eq_filter wellFormed leads [".rb"] ["adm*"] with
    ⟨files, -, found, -, -, member, -, -⟩
  refine ⟨wellFormed, leads, files, found, ?_, ?_⟩
  · apply (member _).mpr
    refine ⟨[], "user.rb", ?_, rfl, by decide⟩
    exact ⟨⟨_, rfl⟩, by simp, ⟨_, rfl, rfl⟩, by decide⟩
  · intro listed
    rcases (member _).mp listed with ⟨-, -, -, -, kept⟩
    exact absurd kept (by decide)

end SpecAudit.Project

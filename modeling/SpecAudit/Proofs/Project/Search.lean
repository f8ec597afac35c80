import SpecAudit.Proofs.Project.Discovery

/-!
# Searching and leaving out afterwards

A search enters no directory that a pattern leaves out.  It could as well enter
them all and leave out files in the end: a pattern that leaves out a directory
leaves out everything below it.  So the files that are found below a place are
those at the ends of the ways through searched directories that no pattern
leaves out.
-/

namespace SpecAudit.Project

/-! ## Places below the project -/

section Below

variable (project : Project) {steps : Place}

theorem apart_append (root steps : Place) :
    apart root (root ++ steps) = ([], steps) := by
  induction root with
  | nil => cases steps <;> rfl
  | cons first rest induction =>
      simp only [List.cons_append, apart, BEq.rfl, if_true]
      exact induction

theorem wayTo_root_append (named : ∀ name ∈ steps, IsName name)
    (nonempty : steps ≠ []) :
    project.wayTo (project.root ++ steps) = String.intercalate "/" steps := by
  have shown : project.shownSteps (project.root ++ steps) = steps := by
    simp [shownSteps, stepsTo, apart_append, nonempty]
  rw [wayTo_eq, shown]
  exact normalized_intercalate fun name member =>
    (named name member).toIsSegment

theorem pathIn_wayTo (named : ∀ name ∈ steps, IsName name) (name : String) :
    Search.pathIn (project.wayTo (project.root ++ steps)) name =
      String.intercalate "/" (steps ++ [name]) := by
  by_cases nonempty : steps = []
  · have dot : project.wayTo (project.root ++ steps) = "." := by
      rw [nonempty, wayTo, apart_append]
      rfl
    rw [dot, nonempty]
    simp [Search.pathIn]
  · have notDot : String.intercalate "/" steps ≠ "." := by
      intro dot
      have same : steps = ["."] :=
        eq_of_intercalate_eq
          (fun name member => (named name member).toIsSegment)
          (by decide) nonempty (by simp) (by rw [dot]; rfl)
      exact (named "." (by simp [same])).notDot rfl
    rw [wayTo_root_append project named nonempty, Search.pathIn,
      if_neg (by simpa using notDot),
      String.intercalate_append_of_ne_nil nonempty (by simp)]
    simp

end Below

/-! ## What a search keeps -/

/-- Whether no pattern leaves out the path that names spell. -/
def IsKept (patterns names : List String) : Prop :=
  ∀ pattern ∈ patterns,
    Path.isExcludedBy pattern (String.intercalate "/" names) = false

instance (patterns names : List String) : Decidable (IsKept patterns names) :=
  inferInstanceAs (Decidable (∀ pattern ∈ patterns, _ = false))

section Kept

variable {patterns names more : List String} {name : String}

/-- What is below a directory is kept only if the directory is. -/
theorem IsKept.of_append (kept : IsKept patterns (names ++ more))
    (named : ∀ name ∈ names, IsName name) (named' : ∀ name ∈ more, IsName name)
    (nonempty : names ≠ []) :
    IsKept patterns names := by
  intro pattern member
  by_contra excluded
  have below : Path.isExcludedBy pattern
      (String.intercalate "/" (names ++ more)) = true :=
    Path.isExcludedBy_append named named' nonempty (by simpa using excluded)
  exact absurd (kept pattern member) (by simp [below])

theorem any_isExcludedBy_eq (patterns names : List String) :
    (patterns.any fun pattern =>
        Path.isExcludedBy pattern (String.intercalate "/" names)) =
      !decide (IsKept patterns names) := by
  rw [Bool.eq_iff_iff, Bool.not_eq_true', decide_eq_false_iff_not]
  simp [IsKept]

/-- A pattern that is a directory's name leaves the directory out anyway. -/
theorem skipsDirectory_eq (named : ∀ step ∈ names ++ [name], IsName step) :
    Path.skipsDirectory (patterns.map .str) name
        (String.intercalate "/" (names ++ [name])) =
      .ok (!decide (name ∉ Path.neverSearched ∧
        IsKept patterns (names ++ [name]))) := by
  have same (pattern : String) :
      (Path.isExcludedBy pattern (String.intercalate "/" (names ++ [name])) ||
          pattern == name) =
        Path.isExcludedBy pattern
          (String.intercalate "/" (names ++ [name])) := by
    by_cases isName : pattern = name
    · have excluded : Path.isExcludedBy pattern
          (String.intercalate "/" (names ++ [name])) = true :=
        Path.isExcludedBy_of_mem named (by simp [isName])
      simp [excluded]
    · simp [isName]
  rw [Path.skipsDirectory_texts]
  simp only [same, any_isExcludedBy_eq]
  rw [Bool.decide_and, Bool.not_and]
  simp

end Kept

namespace Search

variable (search : Search)

/--
Whether a way from a place leads through directories that are searched to the
name of something that is looked for: it has one of the endings, and it is no
directory and no link to one.
-/
structure LeadsToFile (place route : Place) (name : String) : Prop where
  through : ∃ entries,
    search.project.disk.at? (place ++ route) = some (.directory entries)
  searched : ∀ directory ∈ route, directory ∉ Path.neverSearched
  ends : ∃ entry,
    search.project.disk.at? (place ++ route ++ [name]) = some entry ∧
      search.leadsToDirectory (place ++ route) entry = false
  wanted : search.hasEnding name = true

variable {search : Search} {patterns : List String}

section Leads

variable {place route : Place} {directory name : String} {entry : Entry}

theorem leadsToFile_through_iff :
    search.LeadsToFile place (directory :: route) name ↔
      directory ∉ Path.neverSearched ∧
        search.LeadsToFile (place ++ [directory]) route name := by
  have same : place ++ directory :: route = place ++ [directory] ++ route := by
    simp
  constructor
  · rintro ⟨through, searched, ends, wanted⟩
    rw [same] at through ends
    rcases List.forall_mem_cons.mp searched with ⟨first, rest⟩
    exact ⟨first, through, rest, ends, wanted⟩
  · rintro ⟨first, through, rest, ends, wanted⟩
    rw [← same] at through ends
    exact ⟨through, List.forall_mem_cons.mpr ⟨first, rest⟩, ends, wanted⟩

variable (stands : search.project.disk.at? place = some entry)
variable (leads : search.LeadsToFile place route name)

include stands leads

theorem LeadsToFile.exists_directory :
    ∃ entries, entry = .directory entries := by
  rcases leads.through with ⟨entries, through⟩
  rw [at?_append, stands] at through
  cases route with
  | nil =>
      rw [Option.bind_some, Entry.at?] at through
      exact ⟨entries, Option.some.inj through⟩
  | cons first rest => exact exists_directory_of_at?_cons through

theorem LeadsToFile.isName (wellFormed : entry.WellFormed) :
    ∀ step ∈ route ++ [name], IsName step := by
  rcases leads.ends with ⟨inner, found, -⟩
  rw [List.append_assoc, at?_append, stands] at found
  exact (wellFormed.of_at? found).2

end Leads

section Directory

variable {place route : Place} {directory name : String}
variable {entries : List (String × Entry)}
variable (stands : search.project.disk.at? place = some (.directory entries))
variable (distinct : (entries.map Prod.fst).Nodup)

include stands distinct

theorem leadsToFile_nil_iff :
    search.LeadsToFile place [] name ↔
      ∃ entry, (name, entry) ∈ entries ∧
        search.leadsToDirectory place entry = false ∧
        search.hasEnding name = true := by
  constructor
  · rintro ⟨-, -, ⟨entry, found, isFile⟩, wanted⟩
    rw [List.append_nil] at found isFile
    rw [at?_directory stands, lookup_eq_some_iff_mem distinct] at found
    exact ⟨entry, found, isFile, wanted⟩
  · rintro ⟨entry, member, isFile, wanted⟩
    refine ⟨⟨entries, by rw [List.append_nil, stands]⟩, by simp, ?_, wanted⟩
    refine ⟨entry, ?_, by rw [List.append_nil, isFile]⟩
    rw [List.append_nil, at?_directory stands, lookup_eq_some_iff_mem distinct]
    exact member

theorem leadsToFile_cons_iff :
    search.LeadsToFile place (directory :: route) name ↔
      ∃ entry, (directory, entry) ∈ entries ∧
        search.leadsToDirectory place entry = true ∧
        directory ∉ Path.neverSearched ∧
        search.LeadsToFile (place ++ [directory]) route name := by
  rw [leadsToFile_through_iff]
  constructor
  · rintro ⟨searched, leads⟩
    rcases leads.through with ⟨inner, through⟩
    rw [at?_append, at?_directory stands] at through
    cases found : entries.lookup directory with
    | none =>
        rw [found] at through
        cases through
    | some entry =>
        have below : search.project.disk.at? (place ++ [directory]) =
            some entry := by
          rw [at?_directory stands, found]
        rcases leads.exists_directory below with ⟨inner, rfl⟩
        exact ⟨_, (lookup_eq_some_iff_mem distinct).mp found, rfl, searched,
          leads⟩
  · rintro ⟨-, -, -, searched, leads⟩
    exact ⟨searched, leads⟩

/-- What is kept at the end of a way from a directory stands in the directory,
or it is kept at the end of a way from a directory that is entered. -/
theorem exists_kept_iff {steps : Place} {file : String}
    (named : ∀ name ∈ steps, IsName name)
    (wellFormed : (Entry.directory entries).WellFormed) :
    (∃ route name, search.LeadsToFile place route name ∧
        IsKept patterns (steps ++ route ++ [name]) ∧
        file = String.intercalate "/" (steps ++ route ++ [name])) ↔
      (∃ item ∈ entries, search.leadsToDirectory place item.2 = false ∧
        search.hasEnding item.1 = true ∧
        IsKept patterns (steps ++ [item.1]) ∧
        String.intercalate "/" (steps ++ [item.1]) = file) ∨
      ∃ item ∈ entries, (search.leadsToDirectory place item.2 = true ∧
        item.1 ∉ Path.neverSearched ∧
        IsKept patterns (steps ++ [item.1])) ∧
        ∃ route name, search.LeadsToFile (place ++ [item.1]) route name ∧
          IsKept patterns (steps ++ [item.1] ++ route ++ [name]) ∧
          file =
            String.intercalate "/" (steps ++ [item.1] ++ route ++ [name]) := by
  constructor
  · rintro ⟨route, name, leads, kept, rfl⟩
    cases route with
    | nil =>
        rcases (leadsToFile_nil_iff stands distinct).mp leads with
          ⟨entry, member, isFile, wanted⟩
        left
        rw [List.append_nil] at kept ⊢
        exact ⟨(name, entry), member, isFile, wanted, kept, rfl⟩
    | cons directory route =>
        have isName := leads.isName stands wellFormed
        rcases (leadsToFile_cons_iff stands distinct).mp leads with
          ⟨entry, member, isDirectory, searched, leads⟩
        rcases List.forall_mem_cons.mp isName with ⟨first, behind⟩
        rw [List.append_cons steps directory route] at kept ⊢
        have whole := kept
        rw [List.append_assoc] at whole
        have above : IsKept patterns (steps ++ [directory]) :=
          whole.of_append (List.forall_mem_append.mpr
            ⟨named, List.forall_mem_singleton.mpr first⟩) behind (by simp)
        right
        exact ⟨(directory, entry), member, ⟨isDirectory, searched, above⟩,
          route, name, leads, kept, rfl⟩
  · rintro (⟨item, member, isFile, wanted, kept, rfl⟩ |
      ⟨item, member, ⟨isDirectory, searched, -⟩, route, name, leads, kept, rfl⟩)
    · refine ⟨[], item.1, ?_, by simpa using kept, by simp⟩
      exact (leadsToFile_nil_iff stands distinct).mpr
        ⟨item.2, member, isFile, wanted⟩
    · refine ⟨item.1 :: route, name, ?_, by simpa using kept, by simp⟩
      exact (leadsToFile_cons_iff stands distinct).mpr
        ⟨item.2, member, isDirectory, searched, leads⟩

end Directory

section Texts

variable (texts : search.exclusions = patterns.map .str)
variable {steps : Place} (place : Place) {entries : List (String × Entry)}
variable (named : ∀ name ∈ steps, IsName name)
variable (named' : ∀ item ∈ entries, IsName item.1)

include texts named named'

/-- The directories that are entered are those that are searched and kept. -/
theorem entered_eq :
    search.entered (search.project.root ++ steps) place entries =
      .ok ((entries.filter fun item =>
        search.leadsToDirectory place item.2 = true ∧
          item.1 ∉ Path.neverSearched ∧
          IsKept patterns (steps ++ [item.1])).map Prod.fst) := by
  induction entries with
  | nil => rfl
  | cons first rest induction =>
      rcases first with ⟨name, entry⟩
      rcases List.forall_mem_cons.mp named' with ⟨isName, others⟩
      have named' : ∀ step ∈ steps ++ [name], IsName step :=
        List.forall_mem_append.mpr ⟨named, List.forall_mem_singleton.mpr isName⟩
      rw [Search.entered, induction others, texts, pathIn_wayTo _ named,
        skipsDirectory_eq named', List.filter_cons]
      cases search.leadsToDirectory place entry with
      | false => simp
      | true =>
          by_cases kept : name ∉ Path.neverSearched ∧
              IsKept patterns (steps ++ [name])
          · simp [kept]; rfl
          · simp [kept]; rfl

/-- The files that are shown are those that are wanted and kept. -/
theorem ownFiles_eq :
    search.ownFiles (search.project.root ++ steps) place entries =
      .ok ((entries.filter fun item =>
        search.leadsToDirectory place item.2 = false ∧
          search.hasEnding item.1 = true ∧
          IsKept patterns (steps ++ [item.1])).map fun item =>
            String.intercalate "/" (steps ++ [item.1])) := by
  induction entries with
  | nil => rfl
  | cons first rest induction =>
      rcases first with ⟨name, entry⟩
      rcases List.forall_mem_cons.mp named' with ⟨isName, others⟩
      have named' : ∀ step ∈ steps ++ [name], IsName step :=
        List.forall_mem_append.mpr
          ⟨named, List.forall_mem_singleton.mpr isName⟩
      rw [ownFiles, induction others, texts, List.append_assoc,
        wayTo_root_append _ named' (by simp), Path.anyExcludes_texts,
        any_isExcludedBy_eq, List.filter_cons]
      cases search.leadsToDirectory place entry with
      | true => simp
      | false =>
          by_cases kept : search.hasEnding name = true ∧
              IsKept patterns (steps ++ [name])
          · simp [kept]; rfl
          · by_cases wanted : search.hasEnding name = true
            · simp_all; rfl
            · simp [wanted]

end Texts

theorem exists_entered_mem_iff
    (texts : search.exclusions = patterns.map .str) {steps : Place}
    (place : Place) {entries : List (String × Entry)}
    (named : ∀ name ∈ steps, IsName name)
    (named' : ∀ item ∈ entries, IsName item.1)
    (distinct : (entries.map Prod.fst).Nodup) :
    ∃ names,
      search.entered (search.project.root ++ steps) place entries =
          .ok names ∧
        ∀ item ∈ entries, item.1 ∈ names ↔
          search.leadsToDirectory place item.2 = true ∧
            item.1 ∉ Path.neverSearched ∧
            IsKept patterns (steps ++ [item.1]) := by
  refine ⟨_, entered_eq texts place named named', fun item member => ?_⟩
  simp only [List.mem_map, List.mem_filter, decide_eq_true_eq]
  constructor
  · rintro ⟨other, ⟨among, enters⟩, same⟩
    rwa [List.inj_on_of_nodup_map distinct among member same] at enters
  · intro enters
    exact ⟨item, ⟨member, enters⟩, rfl⟩

/-- The files below several entries are those below each of them. -/
theorem exists_filesOf_mem_iff (names : List String) {shown place : Place}
    {entries : List (String × Entry)}
    {below : String × Entry → String → Prop}
    (each : ∀ item ∈ entries, ∃ files,
      search.filesBelow (shown ++ [item.1]) (place ++ [item.1]) item.2 =
          .ok files ∧
        ∀ file, file ∈ files ↔ below item file) :
    ∃ files,
      search.filesOf names shown place entries = .ok files ∧
        ∀ file, file ∈ files ↔
          ∃ item ∈ entries, item.1 ∈ names ∧ below item file := by
  induction entries with
  | nil => exact ⟨[], rfl, by simp⟩
  | cons first rest induction =>
      rcases List.forall_mem_cons.mp each with ⟨⟨own, found, own_mem⟩, others⟩
      rcases induction others with ⟨files, found', files_mem⟩
      rw [filesOf, found, found']
      by_cases entered : first.1 ∈ names
      · refine ⟨own ++ files, by simp [entered]; rfl, fun file => ?_⟩
        simp [entered, own_mem, files_mem]
      · refine ⟨files, by simp [entered], fun file => ?_⟩
        simp [entered, files_mem]

/-- The files below a place are at the ends of the ways that are kept. -/
theorem exists_filesBelow_mem_iff {entry : Entry}
    (texts : search.exclusions = patterns.map .str)
    (wellFormed : entry.WellFormed) {steps place : Place}
    (named : ∀ name ∈ steps, IsName name)
    (stands : search.project.disk.at? place = some entry) :
    ∃ files,
      search.filesBelow (search.project.root ++ steps) place entry =
          .ok files ∧
        ∀ file, file ∈ files ↔
          ∃ route name, search.LeadsToFile place route name ∧
            IsKept patterns (steps ++ route ++ [name]) ∧
            file = String.intercalate "/" (steps ++ route ++ [name]) := by
  induction wellFormed generalizing steps place with
  | file | link | closedFile | closedDirectory =>
      refine ⟨[], rfl, fun file => ?_⟩
      constructor
      · intro member
        cases member
      · rintro ⟨route, name, leads, -, -⟩
        rcases leads.exists_directory stands with ⟨entries, same⟩
        cases same
  | directory entries named' distinct wellFormed induction =>
      have step (item) (member : item ∈ entries) :
          ∀ step ∈ steps ++ [item.1], IsName step :=
        List.forall_mem_append.mpr
          ⟨named, List.forall_mem_singleton.mpr (named' item member)⟩
      have under (item) (member : item ∈ entries) :
          search.project.disk.at? (place ++ [item.1]) = some item.2 := by
        rw [at?_directory stands, lookup_eq_some_iff_mem distinct]
        exact member
      have each (item) (member : item ∈ entries) :=
        induction item member (step item member) (under item member)
      simp only [← List.append_assoc] at each
      rcases exists_entered_mem_iff texts place named named' distinct with
        ⟨names, entered, names_mem⟩
      rcases exists_filesOf_mem_iff names each with
        ⟨nested, found, nested_mem⟩
      have own := ownFiles_eq texts place named named'
      rw [filesBelow, entered, own]
      refine ⟨_ ++ nested, by simp only [bind, Except.bind, found]; rfl,
        fun file => ?_⟩
      rw [exists_kept_iff stands distinct named
        (.directory entries named' distinct wellFormed), List.mem_append,
        nested_mem]
      refine or_congr ?_ (exists_congr fun item => and_congr_right ?_)
      · simp [and_assoc]
      · intro member
        rw [names_mem item member]

end Search

end SpecAudit.Project

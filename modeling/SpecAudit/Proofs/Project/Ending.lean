import SpecAudit.Proofs.Finding.Identifier
import SpecAudit.Proofs.Project.Lookup

/-!
# How found files end

Below a directory only files with one of the endings are found, and the way to
a place ends with the last name of the place.  The exception are the directory
of the project and those that it lies in: the way to them is made of dots.  So
a file that is found holds the ending of a source, or no colon, unless it is
the one file that the search began at.
-/

namespace SpecAudit.Project

/-! ## Ways -/

section Ways

variable {names : List String} {character : Char}

theorem suffix_intercalate (names : List String) (last : String) :
    last.toList <:+ (String.intercalate "/" (names ++ [last])).toList := by
  rw [← text_route_append, Path.Route.text, String.toList_ofList]
  exact List.suffix_append _ _

theorem mem_intercalate
    (member : character ∈ (String.intercalate "/" names).toList) :
    character = '/' ∨ ∃ name ∈ names, character ∈ name.toList := by
  rcases List.eq_nil_or_concat names with rfl | ⟨names, last, rfl⟩
  · cases member
  · rw [List.concat_eq_append, ← text_route_append, Path.Route.text,
      String.toList_ofList] at member
    rcases List.mem_append.mp member with above | inside
    · rcases List.mem_flatMap.mp above with ⟨segment, listed, member⟩
      rcases List.mem_map.mp listed with ⟨name, among, rfl⟩
      rcases List.mem_append.mp member with inside | slash
      · exact .inr ⟨name, by simp [among], inside⟩
      · exact .inl (List.mem_singleton.mp slash)
    · exact .inr ⟨last, by simp, inside⟩

/-- The steps that are shown end with the name of what they lead to, or they
only leave directories. -/
theorem shownSteps_cases (project : Project) (place : Place) (name : String) :
    (∃ above, project.shownSteps (place ++ [name]) = above ++ [name]) ∨
      ∀ step ∈ project.shownSteps (place ++ [name]),
        step = "." ∨ step = ".." := by
  rcases exists_common project.root (place ++ [name]) with ⟨common, -, whole⟩
  rcases List.eq_nil_or_concat (apart project.root (place ++ [name])).2 with
    none | ⟨inner, last, entered⟩
  · right
    intro step member
    unfold shownSteps stepsTo at member
    rw [none, List.append_nil] at member
    split at member
    · exact .inl (List.mem_singleton.mp member)
    · rcases List.mem_map.mp member with ⟨-, -, rfl⟩
      exact .inr rfl
  · left
    rw [entered, List.concat_eq_append, ← List.append_assoc] at whole
    have last' : [name] = [last] := (List.append_inj' whole rfl).2
    cases last'
    refine ⟨(apart project.root (place ++ [name])).1.map (fun _ => "..") ++
      inner, ?_⟩
    have steps : project.stepsTo (place ++ [name]) =
        (apart project.root (place ++ [name])).1.map (fun _ => "..") ++
          inner ++ [name] := by
      rw [stepsTo, entered, List.concat_eq_append, ← List.append_assoc]
    rw [shownSteps, steps, if_neg (by simp)]

/-- The way to a source shows that it is one, or it holds no colon. -/
theorem endsAsSource_wayTo (project : Project) (place : Place) {name : String}
    (source : ".rb".toList <:+ name.toList) :
    Finding.EndsAsSource (project.wayTo (place ++ [name])) := by
  unfold Finding.EndsAsSource
  rw [wayTo_eq, Path.normalized, String.toList_ofList,
    Path.normalizedCharacters]
  intro colon
  rcases shownSteps_cases project place name with ⟨above, steps⟩ | dots
  · rw [steps]
    have whole := (source.trans (suffix_intercalate above name)).map
      fun character => if character = '\\' then '/' else character
    exact whole
  · rcases List.mem_map.mp colon with ⟨character, member, same⟩
    split at same
    · cases same
    · subst same
      rcases mem_intercalate member with slash | ⟨step, listed, inside⟩
      · cases slash
      · rcases dots step listed with rfl | rfl <;> simp at inside

end Ways

/-! ## Searches -/

namespace Search

variable {search : Search} {file : String}

/-- Whether a path leads to something that has one of the endings. -/
def Wants (search : Search) (file : String) : Prop :=
  ∃ above name, search.hasEnding name = true ∧
    file = search.project.wayTo (above ++ [name])

theorem wants_of_mem_ownFiles {shown place : Place}
    {entries : List (String × Entry)} {files : List String}
    (found : search.ownFiles shown place entries = .ok files)
    (member : file ∈ files) : search.Wants file := by
  induction entries generalizing files with
  | nil =>
      cases found
      cases member
  | cons first rest induction =>
      rcases first with ⟨name, entry⟩
      rw [ownFiles] at found
      dsimp only at found
      split at found
      · rename_i wanted
        rcases exists_of_bind_eq_ok found with ⟨left, -, found⟩
        rcases exists_of_bind_eq_ok found with ⟨paths, others, found⟩
        cases found
        cases left with
        | true => exact induction others member
        | false =>
            rcases List.mem_cons.mp member with rfl | later
            · exact ⟨shown, name, (Bool.and_eq_true_iff.mp wanted).2, rfl⟩
            · exact induction others later
      · rcases exists_of_bind_eq_ok found with ⟨left, decided, found⟩
        rcases exists_of_bind_eq_ok found with ⟨paths, others, found⟩
        cases decided
        cases found
        exact induction others member

mutual

theorem wants_of_mem_filesBelow {shown place : Place} {entry : Entry}
    {files : List String}
    (found : search.filesBelow shown place entry = .ok files)
    (member : file ∈ files) : search.Wants file := by
  cases entry with
  | directory entries =>
      rw [filesBelow] at found
      rcases exists_of_bind_eq_ok found with ⟨names, -, found⟩
      rcases exists_of_bind_eq_ok found with ⟨own, ownFound, found⟩
      rcases exists_of_bind_eq_ok found with ⟨nested, nestedFound, found⟩
      cases found
      rcases List.mem_append.mp member with here | below
      · exact wants_of_mem_ownFiles ownFound here
      · exact wants_of_mem_filesOf nestedFound below
  | file | link | closedFile | closedDirectory =>
      rw [filesBelow] at found
      cases found
      cases member

theorem wants_of_mem_filesOf {names : List String} {shown place : Place}
    {entries : List (String × Entry)} {files : List String}
    (found : search.filesOf names shown place entries = .ok files)
    (member : file ∈ files) : search.Wants file := by
  cases entries with
  | nil =>
      rw [filesOf] at found
      cases found
      cases member
  | cons first rest =>
      rw [filesOf] at found
      split at found
      · rcases exists_of_bind_eq_ok found with ⟨below, belowFound, found⟩
        rcases exists_of_bind_eq_ok found with ⟨others, othersFound, found⟩
        cases found
        rcases List.mem_append.mp member with here | later
        · exact wants_of_mem_filesBelow belowFound here
        · exact wants_of_mem_filesOf othersFound later
      · rcases exists_of_bind_eq_ok found with ⟨below, nothing, found⟩
        rcases exists_of_bind_eq_ok found with ⟨others, othersFound, found⟩
        cases nothing
        cases found
        exact wants_of_mem_filesOf othersFound member

end

end Search

/-- Of several files that are found, each shows that it is a source. -/
theorem endsAsSource_of_findFiles {project : Project} {path : String}
    {exclusions : List Json} {files : List String}
    (found : findFiles project path sourceEndings exclusions = .ok files) :
    (∃ file, files = [file]) ∨ ∀ file ∈ files, Finding.EndsAsSource file := by
  rw [findFiles_eq] at found
  split at found
  · cases found
  · cases found
    exact .inl ⟨_, rfl⟩
  · right
    have found := eq_ok_of_mapError_eq_ok found
    unfold Search.filesIn at found
    split at found
    · split at found
      · intro file member
        rcases exists_of_bind_eq_ok found with ⟨below, searched, found⟩
        cases found
        have listed := (List.mergeSort_perm below _).subset member
        rcases Search.wants_of_mem_filesBelow searched listed with
          ⟨above, name, wanted, rfl⟩
        have source : ".rb".toList <:+ name.toList := by
          simpa [Search.hasEnding, sourceEndings] using wanted
        exact endsAsSource_wayTo project above source
      · cases found
        simp
    · cases found
      simp

end SpecAudit.Project

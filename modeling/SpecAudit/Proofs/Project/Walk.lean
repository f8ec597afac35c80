import SpecAudit.Proofs.Project.Disk

/-!
# Following names step by step

Names of directories are followed to the place that they are.  Names that lead
to a directory lead, with one name more, to what the directory holds under it.
And names lead to the same place on every other disk that keeps the directories
and links of the first one.
-/

namespace SpecAudit.Project

/-! ## Names of directories -/

section Through

variable {top entry : Entry} {entries : List (String × Entry)}
variable {base place : Place}

theorem plain_of_cons {name : String} {names : List String}
    (plain : ".." ∉ name :: names) :
    (name == "..") = false ∧ ".." ∉ names := by
  rw [List.mem_cons, not_or] at plain
  exact ⟨by simpa using Ne.symm plain.1, plain.2⟩

/-- Whatever has something below it at a place is a directory there. -/
theorem exists_directory_of_at?_append {rest : Place}
    (nonempty : rest ≠ [])
    (stands : top.at? (place ++ rest) = some entry) :
    ∃ entries, top.at? place = some (.directory entries) := by
  cases rest with
  | nil => contradiction
  | cons name rest =>
      rw [at?_append] at stands
      rcases Option.bind_eq_some_iff.mp stands with ⟨inner, here, below⟩
      rcases exists_directory_of_at?_cons below with ⟨entries, rfl⟩
      exact ⟨entries, here⟩

/-- Each of the names of directories is the name of one. -/
theorem exists_directory_of_at?_first {name : String}
    (stands : top.at? (base ++ name :: place) = some (.directory entries)) :
    ∃ entries, top.at? (base ++ [name]) = some (.directory entries) := by
  rw [← List.singleton_append, ← List.append_assoc] at stands
  by_cases last : place = []
  · subst last
    rw [List.append_nil] at stands
    exact ⟨entries, stands⟩
  · exact exists_directory_of_at?_append last stands

/-- The names of directories are walked through. -/
theorem walk_through {next : Place → List String → Except DiskFault Reached}
    (stands : top.at? (base ++ place) = some (.directory entries))
    (plain : ".." ∉ place) (rest : List String) :
    walk top next base (place ++ rest) = walk top next (base ++ place) rest := by
  induction place generalizing base with
  | nil => rw [List.append_nil, List.nil_append]
  | cons name place induction =>
      have here : ∃ entries, top.at? base = some (.directory entries) :=
        exists_directory_of_at?_append (by simp) stands
      rcases plain_of_cons plain with ⟨notDots, plain⟩
      rcases exists_directory_of_at?_first stands with ⟨_, there⟩
      rcases here with ⟨_, here⟩
      rw [← List.singleton_append, ← List.append_assoc] at stands
      rw [List.cons_append, walk, here]
      dsimp only
      rw [notDots, there]
      dsimp only
      rw [if_neg Bool.false_ne_true, induction stands plain,
        List.append_assoc, List.singleton_append]

theorem follow_through {links : Nat}
    (stands : top.at? (base ++ place) = some (.directory entries))
    (plain : ".." ∉ place) (rest : List String) :
    follow top links base (place ++ rest) =
      follow top links (base ++ place) rest := by
  cases links with
  | zero => exact walk_through stands plain rest
  | succ links => exact walk_through stands plain rest

theorem follow_nil (top : Entry) (links : Nat) (place : Place) :
    follow top links place [] = .ok (.present place) := by
  cases links <;> rfl

theorem follow_directory
    (stands : top.at? place = some (.directory entries))
    (plain : ".." ∉ place) :
    follow top maxLinks [] place = .ok (.present place) := by
  have through : follow top maxLinks [] (place ++ []) =
      follow top maxLinks place [] :=
    follow_through stands plain []
  rwa [List.append_nil, follow_nil] at through

end Through

/-! ## One name more -/

section More

variable {top entry : Entry} {entries : List (String × Entry)}
variable {place there : Place} {name : String}

/-- Whether an entry is no link. -/
def Entry.IsFinal (entry : Entry) : Prop :=
  ∀ target, entry ≠ .link target

variable (directory : top.at? there = some (.directory entries))
variable (notDots : name ≠ "..")
variable (found : entries.lookup name = some entry) (final : entry.IsFinal)

include directory notDots found final

theorem walk_concat {next : Place → List String → Except DiskFault Reached}
    (goesOn : ∀ place names, next place names = .ok (.present there) →
      next place (names ++ [name]) = .ok (.present (there ++ [name])))
    {names : List String}
    (reached : walk top next place names = .ok (.present there)) :
    walk top next place (names ++ [name]) =
      .ok (.present (there ++ [name])) := by
  induction names generalizing place with
  | nil =>
      cases reached
      have under := at?_directory directory name
      rw [List.nil_append, walk, directory]
      dsimp only
      rw [if_neg (by simpa using notDots), under, found]
      cases entry with
      | link target => exact absurd rfl (final target)
      | file | directory | closedFile | closedDirectory => rfl
  | cons first rest induction =>
      rw [List.cons_append]
      rw [walk] at reached ⊢
      split at reached
      · split at reached
        · rw [if_pos ‹_›]
          exact induction reached
        · rw [if_neg ‹_›]
          split at reached
          · rw [← List.append_assoc]
            exact goesOn _ _ reached
          · exact induction reached
          · exact absurd reached walkOff_ne_present
      · cases reached
      · cases reached
      · cases reached

theorem follow_concat {links : Nat} {names : List String}
    (reached : follow top links place names = .ok (.present there)) :
    follow top links place (names ++ [name]) =
      .ok (.present (there ++ [name])) := by
  induction links generalizing place names with
  | zero => exact walk_concat directory notDots found final (by simp) reached
  | succ links induction =>
      exact walk_concat directory notDots found final
        (fun _ _ reached => induction reached) reached

end More

/-! ## Disks that keep directories and links -/

namespace Entry

/-- Whether an entry may stand for another one while names are followed. -/
inductive StandsFor : Entry → Entry → Prop
  | file (content content' : ByteArray) :
      StandsFor (.file content') (.file content)
  | opened (content : ByteArray) : StandsFor (.file content) .closedFile
  | closedFile : StandsFor .closedFile .closedFile
  | closedDirectory : StandsFor .closedDirectory .closedDirectory
  | link (target : String) : StandsFor (.link target) (.link target)
  | directory (entries entries' : List (String × Entry)) :
      StandsFor (.directory entries') (.directory entries)

/-- Whether at every place of a disk another disk has an entry that may stand
for what is there. -/
def Keeps (left right : Entry) : Prop :=
  ∀ place entry, left.at? place = some entry →
    ∃ other, right.at? place = some other ∧ other.StandsFor entry

end Entry

section Kept

variable {top top' : Entry} {place there : Place}

theorem walk_of_keeps (keeps : top.Keeps top')
    {next next' : Place → List String → Except DiskFault Reached}
    (follows : ∀ place names, next place names = .ok (.present there) →
      next' place names = .ok (.present there))
    {names : List String}
    (reached : walk top next place names = .ok (.present there)) :
    walk top' next' place names = .ok (.present there) := by
  induction names generalizing place with
  | nil =>
      cases reached
      rfl
  | cons first rest induction =>
      rw [walk] at reached ⊢
      split at reached
      · rename_i here
        rcases keeps _ _ here with ⟨_, here, ⟨⟩⟩
        rw [here]
        dsimp only
        split at reached
        · rw [if_pos ‹_›]
          exact induction reached
        · rw [if_neg ‹_›]
          split at reached
          · rename_i found
            rcases keeps _ _ found with ⟨_, found, ⟨⟩⟩
            rw [found]
            exact follows _ _ reached
          · rename_i other found
            rcases keeps _ _ found with ⟨_, found, kind⟩
            rw [found]
            cases kind with
            | link target => exact absurd rfl (other target)
            | file | opened | closedFile | directory | closedDirectory =>
                exact induction reached
          · exact absurd reached walkOff_ne_present
      · cases reached
      · cases reached
      · cases reached

theorem follow_of_keeps (keeps : top.Keeps top') {links : Nat}
    {names : List String}
    (reached : follow top links place names = .ok (.present there)) :
    follow top' links place names = .ok (.present there) := by
  induction links generalizing place names with
  | zero => exact walk_of_keeps keeps (by simp) reached
  | succ links induction =>
      exact walk_of_keeps keeps (fun _ _ reached => induction reached) reached

end Kept

end SpecAudit.Project

import SpecAudit.Project.Disk.Change
import SpecAudit.Proofs.Attempt
import SpecAudit.Proofs.Project.Walk

/-!
# Replacing a file

A file that is put in the place of whatever stands under a name is what the
name leads to afterwards.  The directory of the file may be missing, and it and
the file may be links.  Only the way to the directory must not run through the
link that is replaced.
-/

namespace SpecAudit.Project

/-! ## Changed entries -/

namespace Entry

section Changed

variable {entries : List (String × Entry)} {name other first : String}
variable {new : Option Entry} {entry inner top : Entry} {parent rest : Place}

theorem lookup_replace_same (name : String) (entry : Entry)
    (entries : List (String × Entry)) :
    (replace name (some entry) entries).lookup name = some entry := by
  induction entries with
  | nil => simp [replace]
  | cons item entries induction =>
      rcases item with ⟨own, old⟩
      rw [replace]
      split
      · simp
      · rename_i different
        have other : own ≠ name := by simpa using different
        have passed : (name == own) = false := by simpa using Ne.symm other
        rw [List.lookup_cons, passed]
        exact induction

theorem lookup_replace_other (different : other ≠ name) :
    (replace name new entries).lookup other = entries.lookup other := by
  have passed : (other == name) = false := by simpa using different
  induction entries with
  | nil => cases new <;> simp [replace, List.lookup_cons, passed]
  | cons item entries induction =>
      rcases item with ⟨own, old⟩
      rw [replace]
      split
      · rename_i same
        rw [eq_of_beq same, List.lookup_cons, passed]
        cases new <;> simp [List.lookup_cons, passed]
      · rw [List.lookup_cons, List.lookup_cons, induction]

theorem change_cons (found : entries.lookup first = some inner)
    (nonempty : rest ≠ []) :
    (directory entries).change new (first :: rest) =
      directory (replace first (some (inner.change new rest)) entries) := by
  cases rest with
  | nil => contradiction
  | cons second rest =>
      rw [change, found]
      exact List.cons_ne_nil second rest

theorem exists_of_at?_cons {place : Place}
    (stands : top.at? (first :: place) = some entry) :
    ∃ entries inner, top = directory entries ∧
      entries.lookup first = some inner ∧ inner.at? place = some entry := by
  rcases exists_directory_of_at?_cons stands with ⟨entries, rfl⟩
  rw [at?] at stands
  split at stands
  · exact ⟨entries, _, rfl, ‹_›, stands⟩
  · cases stands

/-- A change below a directory is one of the directory. -/
theorem at?_change_parent (stands : top.at? parent = some (directory entries)) :
    (top.change new (parent ++ [name])).at? parent =
      some (directory (replace name new entries)) := by
  induction parent generalizing top with
  | nil =>
      cases stands
      rfl
  | cons first parent induction =>
      rcases exists_of_at?_cons stands with ⟨own, inner, rfl, found, below⟩
      rw [List.cons_append, change_cons found (by simp), at?,
        lookup_replace_same]
      exact induction below

theorem at?_change_same (stands : top.at? parent = some (directory entries)) :
    (top.change (some entry) (parent ++ [name])).at? (parent ++ [name]) =
      some entry := by
  rw [at?_directory (at?_change_parent stands), lookup_replace_same]

theorem StandsFor.refl (entry : Entry) : entry.StandsFor entry := by
  cases entry <;> constructor

theorem keeps_file {content : ByteArray}
    (fits : (file content).StandsFor inner) : inner.Keeps (file content) := by
  intro place entry found
  cases place with
  | nil =>
      cases found
      exact ⟨_, rfl, fits⟩
  | cons => cases fits <;> cases found

/-- A directory keeps what an entry of it keeps that is replaced. -/
theorem keeps_replace
    (fits : ∀ old, entries.lookup name = some old → old.Keeps inner) :
    (directory entries).Keeps (directory (replace name (some inner) entries)) := by
  intro place entry found
  cases place with
  | nil =>
      cases found
      exact ⟨_, rfl, .directory _ _⟩
  | cons first place =>
      rcases exists_of_at?_cons found with ⟨_, old, ⟨⟩, looked, below⟩
      rw [at?]
      by_cases same : first = name
      · subst same
        rw [lookup_replace_same]
        exact fits old looked place entry below
      · rw [lookup_replace_other same, looked]
        exact ⟨entry, below, .refl entry⟩

/-- A file that is put under a free name or for another file changes no
directory and no link. -/
theorem keeps_change {content : ByteArray}
    (stands : top.at? parent = some (directory entries))
    (fits : ∀ old, entries.lookup name = some old →
      (file content).StandsFor old) :
    top.Keeps (top.change (some (file content)) (parent ++ [name])) := by
  induction parent generalizing top with
  | nil =>
      cases stands
      rw [List.nil_append, change]
      exact keeps_replace fun old looked => keeps_file (fits old looked)
  | cons next parent induction =>
      rcases exists_of_at?_cons stands with ⟨own, middle, rfl, through, within⟩
      rw [List.cons_append, change_cons through (by simp)]
      apply keeps_replace
      intro old looked
      rw [Option.some.inj (looked.symm.trans through)]
      exact induction within

theorem keeps_replace_both {inner' : Entry} (fits : inner.Keeps inner') :
    (directory (replace name (some inner) entries)).Keeps
      (directory (replace name (some inner') entries)) := by
  intro place entry found
  cases place with
  | nil =>
      cases found
      exact ⟨_, rfl, .directory _ _⟩
  | cons first place =>
      rcases exists_of_at?_cons found with ⟨_, old, ⟨⟩, looked, below⟩
      rw [at?]
      by_cases same : first = name
      · subst same
        rw [lookup_replace_same] at looked ⊢
        cases looked
        exact fits place entry below
      · rw [lookup_replace_other same] at looked ⊢
        rw [looked]
        exact ⟨entry, below, .refl entry⟩

/-- Whichever file is put under a name, no directory and no link differs. -/
theorem keeps_change_file {content content' : ByteArray}
    (stands : top.at? parent = some (directory entries)) :
    (top.change (some (file content)) (parent ++ [name])).Keeps
      (top.change (some (file content')) (parent ++ [name])) := by
  induction parent generalizing top with
  | nil =>
      cases stands
      exact keeps_replace_both (keeps_file (.file content content'))
  | cons next parent induction =>
      rcases exists_of_at?_cons stands with ⟨own, middle, rfl, through, within⟩
      rw [List.cons_append, change_cons through (by simp),
        change_cons through (by simp)]
      exact keeps_replace_both (induction within)

end Changed

end Entry

/-! ## Making a directory -/

section Made

variable {top top' : Entry} {entries : List (String × Entry)}
variable {base place parent : Place} {name : String}

/-- No directory is made where there are directories already. -/
theorem makeDirectoriesFrom_through
    (stands : top.at? (base ++ place) = some (.directory entries))
    (plain : ".." ∉ place) (rest : List String) :
    makeDirectoriesFrom top base (place ++ rest) =
      makeDirectoriesFrom top (base ++ place) rest := by
  induction place generalizing base with
  | nil => rw [List.append_nil, List.nil_append]
  | cons name place induction =>
      rcases plain_of_cons plain with ⟨notDots, plain⟩
      rcases exists_directory_of_at?_first stands with ⟨_, there⟩
      have stands' := stands
      rw [← List.singleton_append, ← List.append_assoc] at stands
      have here : isClosedAt top base = false := by
        rcases exists_directory_of_at?_append (by simp) stands' with
          ⟨_, here⟩
        simp [isClosedAt, here]
      rw [List.cons_append, makeDirectoriesFrom, here, notDots,
        if_neg Bool.false_ne_true, if_neg Bool.false_ne_true]
      dsimp only
      rw [there]
      dsimp only
      rw [induction stands plain, List.append_assoc, List.singleton_append]

/-- A directory may be entered, or it is closed. -/
theorem directory_or_isClosedAt
    (isDirectory : (top.at? place).any Entry.isDirectory = true) :
    (∃ entries, top.at? place = some (.directory entries)) ∨
      isClosedAt top place = true := by
  unfold isClosedAt
  cases found : top.at? place with
  | none =>
      rw [found] at isDirectory
      cases isDirectory
  | some entry =>
      rw [found] at isDirectory
      cases entry with
      | directory entries => exact .inl ⟨entries, rfl⟩
      | closedDirectory => exact .inr rfl
      | file | link | closedFile => cases isDirectory

/-- A directory that is made, and may be entered, was missing, was there, or is
where a link leads. -/
theorem makeDirectoriesFrom_cases (notDots : name ≠ "..")
    (made : makeDirectoriesFrom top place [name] = .ok (top', parent))
    (isOpen : isClosedAt top' parent = false) :
    (top.at? (place ++ [name]) = none ∧
      top' = top.change (some (.directory [])) (place ++ [name]) ∧
      parent = place ++ [name]) ∨
    (∃ entries, top.at? (place ++ [name]) = some (.directory entries) ∧
      top' = top ∧ parent = place ++ [name]) ∨
    ∃ target entries, top.at? (place ++ [name]) = some (.link target) ∧
      follow top maxLinks place [name] = .ok (.present parent) ∧
      top.at? parent = some (.directory entries) ∧ top' = top := by
  rw [makeDirectoriesFrom] at made
  split at made
  · cases made
  rw [if_neg (by simpa using notDots)] at made
  dsimp only at made
  split at made
  · split at made
    · cases made
    · cases made
      exact .inl ⟨‹_›, rfl, rfl⟩
  · cases made
    exact .inr (.inl ⟨_, ‹_›, rfl, rfl⟩)
  · rename_i closed
    cases made
    simp [isClosedAt, closed] at isOpen
  · cases made
  · cases made
  · split at made
    · split at made
      · rename_i isDirectory
        cases made
        rcases directory_or_isClosedAt isDirectory with
          ⟨entries, found⟩ | closed
        · exact .inr (.inr ⟨_, entries, ‹_›, ‹_›, found, rfl⟩)
        · rw [closed] at isOpen
          cases isOpen
      · cases made
    · cases made
    · cases made
    · cases made

end Made

/-! ## The file that is put -/

section Replaced

variable {top top' : Entry} {entries : List (String × Entry)}
variable {place parent : Place} {directory name : String}
variable {content : ByteArray}

theorem entry?_concat
    (reached : follow top maxLinks [] place = .ok (.present parent))
    (stands : top.at? parent = some (.directory entries))
    (notDots : name ≠ "..")
    (fits : pathBytes (place ++ [name]) ≤ maxPathBytes)
    (found : entries.lookup name = some (.file content)) :
    entry? top (place ++ [name]) = some (.file content) := by
  have final : (Entry.file content).IsFinal := by
    intro target same
    cases same
  have goes : follow top maxLinks [] (place ++ [name]) =
      .ok (.present (parent ++ [name])) :=
    follow_concat stands notDots found final reached
  unfold entry?
  rw [reach_eq_ok_iff.mpr ⟨fits, goes⟩]
  exact (at?_directory stands name).trans found

/-- A file that is put into a directory is found by a way that leads to the
directory when the file is there. -/
theorem entry?_change
    (stands : top.at? parent = some (.directory entries))
    (reached :
      follow (top.change (some (.file content)) (parent ++ [name])) maxLinks []
        place = .ok (.present parent))
    (notDots : name ≠ "..")
    (fits : pathBytes (place ++ [name]) ≤ maxPathBytes) :
    entry? (top.change (some (.file content)) (parent ++ [name]))
      (place ++ [name]) = some (.file content) := by
  have after :
      (top.change (some (.file content)) (parent ++ [name])).at? parent =
        some (.directory (Entry.replace name (some (.file content)) entries)) :=
    Entry.at?_change_parent stands
  apply entry?_concat reached after notDots fits
  exact Entry.lookup_replace_same name _ entries

theorem follow_change_directory
    (stands : top.at? parent = some (.directory entries))
    (plain : ".." ∉ parent) :
    follow (top.change (some (.file content)) (parent ++ [name])) maxLinks []
      parent = .ok (.present parent) :=
  follow_directory (Entry.at?_change_parent stands) plain

/-- Whether the way to a directory does not run through what stands under a
name in it.  It could do so only if there is a link under either; then the
directory is to be reached also if a file takes the place of the link in it. -/
def IsDirect (top : Entry) (place : Place) (directory name : String) : Prop :=
  ∀ target parent target',
    top.at? (place ++ [directory]) = some (.link target) →
    reach top (place ++ [directory]) = .ok (.present parent) →
    top.at? (parent ++ [name]) = some (.link target') →
    reach (top.change (some (.file .empty)) (parent ++ [name]))
      (place ++ [directory]) = .ok (.present parent)

/-- A file that is put into a directory, in the place of no directory, leaves
the way to it open. -/
theorem follow_change_reached {target : String}
    (direct : IsDirect top place directory name)
    (link : top.at? (place ++ [directory]) = some (.link target))
    (reached : reach top (place ++ [directory]) = .ok (.present parent))
    (stands : top.at? parent = some (.directory entries))
    (noDirectory :
      (top.at? (parent ++ [name])).any Entry.isDirectory = false) :
    follow (top.change (some (.file content)) (parent ++ [name])) maxLinks []
      (place ++ [directory]) = .ok (.present parent) := by
  have under := at?_directory stands name
  by_cases isLink : ∃ target', entries.lookup name = some (.link target')
  · rcases isLink with ⟨target', found⟩
    have reached' := direct target parent target' link reached
      (under.trans found)
    exact follow_of_keeps (Entry.keeps_change_file stands)
      (reach_eq_ok_iff.mp reached').2
  · refine follow_of_keeps ?_ (reach_eq_ok_iff.mp reached).2
    apply Entry.keeps_change stands
    intro old found
    rw [under, found] at noDirectory
    cases old with
    | file old => exact .file old content
    | closedFile => exact .opened content
    | link target' => exact absurd ⟨target', found⟩ isLink
    | directory | closedDirectory => cases noDirectory

theorem of_checkPlace {names : List String}
    (checked : checkPlace top parent names = .ok ()) :
    pathBytes names ≤ maxPathBytes ∧ isClosedAt top parent = false := by
  unfold checkPlace at checked
  split at checked
  · cases checked
  · split at checked
    · cases checked
    · rename_i short isOpen
      rw [Bool.or_eq_true, not_or, decide_eq_true_eq, Nat.not_lt] at short
      exact ⟨short.1, by simpa using isOpen⟩

/-- A file that is put under a name is what the name leads to. -/
theorem entry?_of_replaceFile
    (root : top.at? place = some (.directory entries)) (plain : ".." ∉ place)
    (notDots : directory ≠ "..") (notDots' : name ≠ "..")
    (direct : IsDirect top place directory name)
    (put : replaceFile content (place ++ [directory, name]) top = .ok top') :
    entry? top' (place ++ [directory, name]) = some (.file content) := by
  have dropped : (place ++ [directory, name]).dropLast =
      place ++ [directory] := by simp
  have inside (parent : Place) :
      placeIn parent (place ++ [directory, name]) = parent ++ [name] := by
    simp [placeIn, notDots']
  have plain' : ".." ∉ place ++ [directory] := by
    simpa [Ne.symm notDots] using plain
  rcases exists_of_bind_eq_ok put with ⟨⟨middle, parent⟩, made, put⟩
  rcases exists_of_bind_eq_ok put with ⟨_, -, put⟩
  rcases exists_of_bind_eq_ok put with ⟨_, checked, put⟩
  rcases of_checkPlace checked with ⟨fits, isOpen⟩
  rw [dropped, makeDirectoriesFrom_through root plain, List.nil_append] at made
  dsimp only at put
  rw [inside] at put
  split at put
  · cases put
  rename_i noDirectory
  cases put
  rw [List.append_cons place] at fits ⊢
  rcases makeDirectoriesFrom_cases notDots made isOpen with
    ⟨missing, rfl, rfl⟩ | ⟨own, stands, rfl, rfl⟩ |
    ⟨target, own, link, reached, stands, rfl⟩
  · have stands : (top.change (some (.directory []))
        (place ++ [directory])).at? (place ++ [directory]) =
          some (.directory []) :=
      Entry.at?_change_same root
    exact entry?_change stands (follow_change_directory stands plain') notDots'
      fits
  · exact entry?_change stands (follow_change_directory stands plain') notDots'
      fits
  · have fits' : pathBytes (place ++ [directory]) ≤ maxPathBytes := by
      rw [pathBytes_concat _ name] at fits
      exact Nat.le_trans (Nat.le_add_right _ _) fits
    have followed : follow middle maxLinks [] (place ++ [directory]) =
        .ok (.present parent) :=
      (follow_through root plain [directory]).trans reached
    have reached' : reach middle (place ++ [directory]) =
        .ok (.present parent) :=
      reach_eq_ok_iff.mpr ⟨fits', followed⟩
    exact entry?_change stands (follow_change_reached direct link reached'
      stands (by simpa using noDirectory)) notDots' fits

end Replaced

end SpecAudit.Project

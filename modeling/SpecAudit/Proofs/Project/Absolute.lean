import Mathlib.Data.List.Infix
import SpecAudit.Finding.Basic
import SpecAudit.Proofs.Path.Below
import SpecAudit.Proofs.Project.Walk

/-!
# Paths below the path of a project

A relative path is read from the directory of the project.  Below the path of
that directory it has the same names, so it leads to the same entry.  It is
also shown in the same way, provided that it is in normal form and has no
links on it: then there is nothing to resolve.
-/

namespace SpecAudit.Project

open SpecAudit.Path (below normalized IsRelative)

/-! ## The names on a path -/

section Names

variable {names : List String} {path : String} {place : Place}

theorem namesOf_below (left right : String) :
    namesOf (below left right) = namesOf left ++ namesOf right := by
  have spelled : (below left right).toList =
      left.toList ++ '/' :: right.toList := by
    simp [below]
  unfold namesOf
  rw [spelled, Path.Route.ofCharacters_append, Path.Route.segments_under,
    List.filter_append, List.map_append]

/-- The names on the path that names spell are the names. -/
theorem namesOf_intercalate (named : ∀ name ∈ names, IsName name) :
    namesOf (String.intercalate "/" names) = names := by
  by_cases empty : names = []
  · subst empty
    decide
  have kept : ∀ segment ∈ names.map String.toList,
      (segment != [] && segment != ['.']) = true := by
    intro segment member
    rcases List.mem_map.mp member with ⟨name, listed, rfl⟩
    exact (named name listed).isKept
  have segments := segments_intercalate
    (fun name member => (named name member).toIsSegment) empty
  unfold namesOf
  rw [segments, List.filter_eq_self.mpr kept, List.map_map]
  simp [Function.comp_def]

theorem namesOf_pathOf (named : ∀ name ∈ place, IsName name) :
    namesOf (pathOf place) = place := by
  have top : pathOf place = below "" (String.intercalate "/" place) := by
    simp [pathOf, below]
  have none : namesOf "" = [] := by decide
  rw [top, namesOf_below, none, namesOf_intercalate named, List.nil_append]

theorem isAbsolute_below_pathOf (place : Place) (path : String) :
    isAbsolute (below (pathOf place) path) = true := by
  simp [isAbsolute, below, pathOf]

theorem isAbsolute_of_isRelative (relative : IsRelative path) :
    isAbsolute path = false := by
  simpa [isAbsolute] using relative.startsInside

end Names

/-! ## What a path leads to -/

section Reading

variable {project : Project} {path : String}
variable (named : ∀ name ∈ project.root, IsName name)
variable (relative : IsRelative path)

include named relative

/-- Below the path of the project a relative path has the names that it has. -/
theorem names_below :
    project.names (below (pathOf project.root) path) = project.names path := by
  unfold names
  rw [isAbsolute_below_pathOf, if_pos rfl, isAbsolute_of_isRelative relative,
    if_neg Bool.false_ne_true, namesOf_below, namesOf_pathOf named]

theorem entryAt?_below :
    project.entryAt? (below (pathOf project.root) path) =
      project.entryAt? path := by
  rw [entryAt?, names_below named relative]
  rfl

theorem hasFile_below :
    project.hasFile (below (pathOf project.root) path) =
      project.hasFile path := by
  rw [hasFile, names_below named relative]
  rfl

theorem text?_below :
    project.text? (below (pathOf project.root) path) = project.text? path := by
  rw [text?, entryAt?_below named relative]
  rfl

end Reading

/-! ## Ways without links -/

/-- Whether there is no link on the way to a place. -/
def Entry.IsLinkFree (top : Entry) (place : Place) : Prop :=
  ∀ front ∈ place.inits, ∀ target, top.at? front ≠ some (.link target)

section LinkFree

variable {top : Entry} {base place : Place} {names : List String}

theorem Entry.IsLinkFree.at?_concat {name : String}
    (free : top.IsLinkFree (base ++ name :: names)) (target : String) :
    top.at? (base ++ [name]) ≠ some (.link target) := by
  apply free
  rw [List.mem_inits]
  exact ⟨names, by simp⟩

/-- Where there are no links, nothing is resolved. -/
theorem resolveHops_of_isLinkFree {fuel : Nat}
    {known : List (Place × Option Place)}
    (free : top.IsLinkFree (base ++ names)) (plain : ".." ∉ names)
    (enough : names.length ≤ fuel) :
    resolveHops top fuel known base (names.map .enter) = base ++ names := by
  induction names generalizing base fuel with
  | nil =>
      rw [List.append_nil]
      cases fuel <;> rfl
  | cons name names induction =>
      cases fuel with
      | zero => simp at enough
      | succ fuel =>
          rcases plain_of_cons plain with ⟨notDots, plain⟩
          have noLink := free.at?_concat
          have behind := @induction (base ++ [name]) fuel (by simpa using free)
            plain (Nat.le_of_succ_le_succ enough)
          rw [List.append_assoc, List.singleton_append] at behind
          rw [List.map_cons, resolveHops, notDots, if_neg Bool.false_ne_true]
          dsimp only
          split
          · rename_i target found
            exact absurd found (noLink target)
          · exact behind

theorem walk_of_isLinkFree
    {next : Place → List String → Except DiskFault Reached}
    (free : top.IsLinkFree (base ++ names)) (plain : ".." ∉ names) :
    walk top next base names ≠ .error .tooManyLinks := by
  induction names generalizing base with
  | nil => simp [walk]
  | cons name names induction =>
      rcases plain_of_cons plain with ⟨notDots, plain⟩
      have noLink := free.at?_concat
      have behind := @induction (base ++ [name]) (by simpa using free) plain
      rw [walk]
      split
      · rw [notDots, if_neg Bool.false_ne_true]
        split
        · rename_i target found
          exact absurd found (noLink target)
        · exact behind
        · fun_cases walkOff base name names <;> simp
      · simp
      · simp
      · simp

theorem resolve_of_isLinkFree (free : top.IsLinkFree place)
    (plain : ".." ∉ place) : resolve top place = .ok place := by
  have same : resolved top place = place :=
    resolveHops_of_isLinkFree free plain (by omega)
  have reached : reach top place ≠ .error .tooManyLinks := by
    unfold reach
    split
    · simp
    · have free : top.IsLinkFree ([] ++ place) := free
      exact walk_of_isLinkFree free plain
  unfold resolve
  rw [same]
  dsimp only
  split
  · contradiction
  · rfl

end LinkFree

/-! ## How a path is shown -/

/-- Whether a path is in normal form: it is spelled by the names on it, so none
of them is empty or a dot, and none is two dots. -/
structure IsNormalPath (path : String) : Prop where
  nonempty : namesOf path ≠ []
  spelled : String.intercalate "/" (namesOf path) = path
  inside : ".." ∉ namesOf path

instance (path : String) : Decidable (IsNormalPath path) :=
  decidable_of_iff
    (namesOf path ≠ [] ∧ String.intercalate "/" (namesOf path) = path ∧
      ".." ∉ namesOf path)
    ⟨fun parts => ⟨parts.1, parts.2.1, parts.2.2⟩,
      fun plain => ⟨plain.nonempty, plain.spelled, plain.inside⟩⟩

section Shown

variable {project : Project} {path : String}

theorem isName_of_mem_namesOf (relative : IsRelative path)
    (plain : IsNormalPath path) {name : String}
    (member : name ∈ namesOf path) : IsName name := by
  have clean := Path.Route.IsClean.ofCharacters relative.noBackslash
  have inside : name ≠ ".." := fun dots => plain.inside (dots ▸ member)
  rcases List.mem_map.mp member with ⟨segment, kept, rfl⟩
  rcases List.mem_filter.mp kept with ⟨listed, named⟩
  rcases clean segment listed with ⟨noSlash, noBackslash⟩
  simp only [bne_iff_ne, ne_eq, Bool.and_eq_true] at named
  refine ⟨⟨?_, ?_, ?_⟩, ?_, inside⟩
  · simpa using named.1
  · simpa using noSlash
  · simpa using noBackslash
  · intro dot
    apply named.2
    rw [← String.toList_ofList (l := segment), dot]
    rfl

theorem shownPath_append {names : List String}
    (named : ∀ name ∈ names, IsName name) (nonempty : names ≠ []) :
    project.shownPath (project.root ++ names) =
      String.intercalate "/" names := by
  have below : project.root.isPrefixOf (project.root ++ names) = true := by
    simp
  unfold shownPath
  rw [if_pos below, List.drop_left]
  cases names with
  | nil => contradiction
  | cons first rest =>
      exact normalized_intercalate fun name member =>
        (named name member).toIsSegment

/-- Below the path of the project a path is shown as it is by itself. -/
theorem filePath_below (named : ∀ name ∈ project.root, IsName name)
    (relative : IsRelative path) (plain : IsNormalPath path)
    (free : project.disk.IsLinkFree (project.names path)) :
    Finding.filePath project (below (pathOf project.root) path) =
      Finding.filePath project path := by
  have names : project.names path = project.root ++ namesOf path := by
    rw [Project.names, isAbsolute_of_isRelative relative,
      if_neg Bool.false_ne_true]
  have namedPath : ∀ name ∈ namesOf path, IsName name :=
    fun _ member => isName_of_mem_namesOf relative plain member
  have inside : ".." ∉ project.root ++ namesOf path := by
    intro member
    rcases List.mem_append.mp member with member | member
    · exact (named _ member).notDots rfl
    · exact plain.inside member
  rw [Finding.filePath, isAbsolute_below_pathOf, if_pos rfl,
    Finding.filePath, isAbsolute_of_isRelative relative,
    if_neg Bool.false_ne_true, resolvePath, names_below named relative, names,
    resolve_of_isLinkFree (names ▸ free) inside, relative.isNormal]
  change Except.ok (project.shownPath (project.root ++ namesOf path)) = _
  rw [shownPath_append namedPath plain.nonempty, plain.spelled]

end Shown

end SpecAudit.Project

import SpecAudit.Path.Exclusion
import SpecAudit.Proofs.Attempt
import SpecAudit.Proofs.Project.Way

/-!
# What a pattern leaves out

A pattern leaves out a path by one of its components or by the directory that
the path lies below.  Both hold of everything below the path, too.  So whatever
leaves out a directory leaves out each file in it, and of patterns that are
texts it can always be told which of them leave out a path.  Of other patterns
it cannot, and that shows as soon as one of them is reached.
-/

namespace SpecAudit.Path

open SpecAudit.Project (IsName)
open SpecAudit.Text (afterWord?_eq_some_iff)

/-! ## Components -/

section Components

variable {names more : List String} {pattern : String}
variable (named : ∀ name ∈ names, IsName name)

include named

/-- The components of the path that names spell are the names. -/
theorem components_intercalate (nonempty : names ≠ []) :
    components (String.intercalate "/" names).toList =
      names.map String.toList := by
  have relative : Project.isAbsolute (String.intercalate "/" names) = false :=
    Project.isAbsolute_intercalate fun name member =>
      (named name member).toIsSegment
  have kept : ∀ segment ∈ names.map String.toList,
      (segment != [] && segment != ['.']) = true := by
    intro segment member
    rcases List.mem_map.mp member with ⟨name, listed, rfl⟩
    exact (named name listed).isKept
  have segments := Project.segments_intercalate
    (fun name member => (named name member).toIsSegment) nonempty
  unfold components
  rw [segments, List.filter_eq_self.mpr kept]
  unfold Project.isAbsolute at relative
  split
  all_goals simp_all

/-- What leaves out a path leaves out everything below it. -/
theorem isExcludedBy_append (named' : ∀ name ∈ more, IsName name)
    (nonempty : names ≠ [])
    (excluded : isExcludedBy pattern (String.intercalate "/" names) = true) :
    isExcludedBy pattern (String.intercalate "/" (names ++ more)) = true := by
  by_cases nothing : more = []
  · rwa [nothing, List.append_nil]
  have spelled := components_intercalate named nonempty
  have spelled' : components
      (String.intercalate "/" (names ++ more)).toList =
        (names ++ more).map String.toList :=
    components_intercalate (List.forall_mem_append.mpr ⟨named, named'⟩)
      (by simp [nonempty])
  unfold isExcludedBy at excluded ⊢
  rw [spelled] at excluded
  rw [spelled', List.map_append]
  simp only [Bool.or_eq_true, Bool.and_eq_true, List.contains_eq_mem,
    decide_eq_true_eq, List.any_append] at excluded ⊢
  rcases excluded with (component | ⟨star, component⟩) | below
  · exact .inl (.inl (List.mem_append_left _ component))
  · exact .inl (.inr ⟨star, .inl component⟩)
  · right
    unfold liesBelow at below ⊢
    rw [Bool.and_eq_true, Option.isSome_iff_exists] at below ⊢
    rcases below with ⟨slash, rest, found⟩
    rw [afterWord?_eq_some_iff] at found
    refine ⟨slash,
      rest ++ ("/".toList ++ (String.intercalate "/" more).toList), ?_⟩
    rw [afterWord?_eq_some_iff,
      String.intercalate_append_of_ne_nil nonempty nothing,
      String.toList_append, String.toList_append, found]
    simp only [List.append_assoc]

/-- A pattern that is a name leaves out every path with that name. -/
theorem isExcludedBy_of_mem (member : pattern ∈ names) :
    isExcludedBy pattern (String.intercalate "/" names) = true := by
  unfold isExcludedBy
  rw [components_intercalate named (List.ne_nil_of_mem member)]
  simp [List.mem_map_of_mem member]

end Components

/-! ## Patterns that are texts -/

theorem anyExcludes_texts (patterns : List String) (path : String) :
    anyExcludes (patterns.map .str) path =
      .ok (patterns.any (isExcludedBy · path)) := by
  induction patterns with
  | nil => rfl
  | cons first rest induction =>
      rw [List.map_cons, anyExcludes, excludes, List.any_cons]
      cases isExcludedBy first path with
      | true => rfl
      | false => exact induction

theorem anyExcludesDirectory_texts (patterns : List String)
    (name path : String) :
    anyExcludesDirectory (patterns.map .str) name path =
      .ok (patterns.any fun pattern =>
        isExcludedBy pattern path || pattern == name) := by
  induction patterns with
  | nil => rfl
  | cons first rest induction =>
      rw [List.map_cons, anyExcludesDirectory, excludes, List.any_cons]
      cases isExcludedBy first path with
      | true => rfl
      | false =>
          change
            (if (Json.str first).text? == some name then .ok true
            else anyExcludesDirectory _ name path) = _
          rw [induction]
          by_cases same : first = name <;> simp [Json.text?, same]

theorem skipsDirectory_texts (patterns : List String) (name path : String) :
    skipsDirectory (patterns.map .str) name path =
      .ok (neverSearched.contains name || patterns.any fun pattern =>
        isExcludedBy pattern path || pattern == name) := by
  rw [skipsDirectory, anyExcludesDirectory_texts]
  cases neverSearched.contains name <;> rfl

/-! ## Patterns that are no texts -/

section NoTexts

variable {patterns : List Json} {name path : String}

/-- Whether a list or an object cannot be looked for in a path: a slash is
among its texts, or a star while the path has components. -/
def HasMark (path : String) (members : List String) : Prop :=
  "*" ∈ members ∧ components path.toList ≠ [] ∨ "/" ∈ members

/-- Whether a pattern cannot be looked for in a path. -/
def IsUnaskable (path : String) : Json → Prop
  | .str _ => False
  | .arr items => HasMark path (items.filterMap Json.text?)
  | .obj fields => HasMark path (Fields.keys fields)
  | _ => True

theorem fails_collectionExcludes_iff {members : List String} :
    Fails (collectionExcludes members path) ↔ HasMark path members := by
  unfold collectionExcludes HasMark
  split
  · rename_i star
    simp_all
  · rename_i noStar
    split
    · rename_i slash
      simp_all
    · rename_i noSlash
      simp_all

theorem fails_excludes_iff (pattern : Json) :
    Fails (excludes pattern path) ↔ IsUnaskable path pattern := by
  cases pattern with
  | str text => simp [excludes, IsUnaskable]
  | arr items => exact fails_collectionExcludes_iff
  | obj fields => exact fails_collectionExcludes_iff
  | _ => simp [excludes, IsUnaskable]

theorem anyExcludes_eq_anyAnswers (patterns : List Json) (path : String) :
    anyExcludes patterns path = anyAnswers (excludes · path) patterns := by
  induction patterns with
  | nil => rfl
  | cons first rest induction => rw [anyExcludes, anyAnswers, induction]

/-- Whether a pattern leaves out a path is asked until one does, or until one
that cannot be asked. -/
theorem fails_anyExcludes_iff :
    Fails (anyExcludes patterns path) ↔
      ∃ before pattern after, patterns = before ++ pattern :: after ∧
        (∀ earlier ∈ before, excludes earlier path = .ok false) ∧
        IsUnaskable path pattern := by
  rw [anyExcludes_eq_anyAnswers, fails_anyAnswers_iff]
  simp only [FailsFirst, fails_excludes_iff]

/-- Whether a pattern leaves out a directory, by its path or by being its
name. -/
def excludesDirectory (name path : String) (pattern : Json) :
    Except PatternFault Bool := do
  if ← excludes pattern path then return true
  else return pattern.text? == some name

theorem fails_excludesDirectory_iff (pattern : Json) :
    Fails (excludesDirectory name path pattern) ↔ IsUnaskable path pattern := by
  rw [excludesDirectory, ← fails_excludes_iff,
    fails_bind_iff_or fun excluded _ => iff_false_intro ?_, or_false]
  cases excluded <;> exact not_fails_pure _

theorem anyExcludesDirectory_eq_anyAnswers (patterns : List Json)
    (name path : String) :
    anyExcludesDirectory patterns name path =
      anyAnswers (excludesDirectory name path) patterns := by
  induction patterns with
  | nil => rfl
  | cons first rest induction =>
      rw [anyExcludesDirectory, anyAnswers, induction, excludesDirectory]
      cases excludes first path with
      | error fault => rfl
      | ok excluded =>
          cases excluded with
          | true => rfl
          | false => rfl

/-- Of a directory that may be searched, the patterns are asked in the same
way. -/
theorem fails_skipsDirectory_iff :
    Fails (skipsDirectory patterns name path) ↔
      name ∉ neverSearched ∧
        ∃ before pattern after, patterns = before ++ pattern :: after ∧
          (∀ earlier ∈ before,
            excludesDirectory name path earlier = .ok false) ∧
          IsUnaskable path pattern := by
  unfold skipsDirectory
  split
  · rename_i never
    simp only [List.contains_iff_mem] at never
    simp [never]
  · rename_i searched
    simp only [List.contains_iff_mem] at searched
    rw [anyExcludesDirectory_eq_anyAnswers, fails_anyAnswers_iff]
    simp only [FailsFirst, fails_excludesDirectory_iff, searched,
      not_false_eq_true, true_and]

end NoTexts

end SpecAudit.Path

import Mathlib.Data.List.Basic
import SpecAudit.Project.Lookup
import SpecAudit.Proofs.Path.Route

/-!
# The way to a place

Names of entries hold no slashes and are not dots.  So names are read back from
the path that they spell, and a place is determined by the way to it from a
project.  That way is a relative path with forward slashes only.
-/

namespace SpecAudit.Project

/-- Whether a text can stand between two slashes of a path. -/
structure IsSegment (name : String) : Prop where
  nonempty : name ≠ ""
  noSlash : '/' ∉ name.toList
  noBackslash : '\\' ∉ name.toList

/-- Whether a text can be the name of an entry. -/
structure IsName (name : String) : Prop extends IsSegment name where
  notDot : name ≠ "."
  notDots : name ≠ ".."

instance (name : String) : Decidable (IsSegment name) :=
  decidable_of_iff
    (name ≠ "" ∧ '/' ∉ name.toList ∧ '\\' ∉ name.toList)
    ⟨fun parts => ⟨parts.1, parts.2.1, parts.2.2⟩,
      fun segment => ⟨segment.nonempty, segment.noSlash, segment.noBackslash⟩⟩

instance (name : String) : Decidable (IsName name) :=
  decidable_of_iff (IsSegment name ∧ name ≠ "." ∧ name ≠ "..")
    ⟨fun parts => ⟨parts.1, parts.2.1, parts.2.2⟩,
      fun isName => ⟨isName.toIsSegment, isName.notDot, isName.notDots⟩⟩

/-! ## Paths that names spell -/

section Spelled

variable {left right names : List String}

theorem text_route_append (names : List String) (last : String) :
    Path.Route.text ⟨names.map String.toList, last.toList⟩ =
      String.intercalate "/" (names ++ [last]) := by
  unfold Path.Route.text Path.Route.characters
  induction names with
  | nil => simp
  | cons first rest induction =>
      have more : rest ++ [last] ≠ [] := by simp
      rw [List.cons_append, String.intercalate_cons_of_ne_nil more,
        ← induction]
      apply String.ext
      simp

theorem isClean_of_isSegment {last : String}
    (segments : ∀ name ∈ names ++ [last], IsSegment name) :
    Path.Route.IsClean ⟨names.map String.toList, last.toList⟩ := by
  intro segment member
  have listed : segment ∈ (names ++ [last]).map String.toList := by
    simpa [Path.Route.segments] using member
  rcases List.mem_map.mp listed with ⟨name, among, rfl⟩
  exact ⟨(segments name among).noSlash, (segments name among).noBackslash⟩

/-- Names are determined by the path that they spell. -/
theorem eq_of_intercalate_eq
    (segmentsLeft : ∀ name ∈ left, IsSegment name)
    (segmentsRight : ∀ name ∈ right, IsSegment name)
    (someLeft : left ≠ []) (someRight : right ≠ [])
    (same : String.intercalate "/" left = String.intercalate "/" right) :
    left = right := by
  rcases List.eq_nil_or_concat left with rfl | ⟨names, last, rfl⟩
  · contradiction
  rcases List.eq_nil_or_concat right with rfl | ⟨names', last', rfl⟩
  · contradiction
  rw [List.concat_eq_append] at *
  rw [List.concat_eq_append] at *
  rw [← text_route_append, ← text_route_append] at same
  have routes := congrArg Path.route same
  rw [(isClean_of_isSegment segmentsLeft).route_text,
    (isClean_of_isSegment segmentsRight).route_text] at routes
  injection routes with directories file
  have injective : Function.Injective String.toList :=
    fun _ _ => String.toList_injective
  rw [List.map_injective_iff.mpr injective directories, injective file]

theorem normalized_intercalate (segments : ∀ name ∈ names, IsSegment name) :
    Path.normalized (String.intercalate "/" names) =
      String.intercalate "/" names := by
  rcases List.eq_nil_or_concat names with rfl | ⟨names, last, rfl⟩
  · rfl
  · rw [List.concat_eq_append] at *
    rw [← text_route_append]
    apply Path.normalized_of_noBackslash
    have spelled := isClean_of_isSegment segments
    simpa [Path.Route.text] using spelled.noBackslash

/-- The segments of the path that names spell are the names. -/
theorem segments_intercalate (segments : ∀ name ∈ names, IsSegment name)
    (nonempty : names ≠ []) :
    (Path.Route.ofCharacters (String.intercalate "/" names).toList).segments =
      names.map String.toList := by
  rcases List.eq_nil_or_concat names with rfl | ⟨init, last, rfl⟩
  · contradiction
  rw [List.concat_eq_append] at *
  have clean := isClean_of_isSegment segments
  rw [← text_route_append, Path.Route.text, String.toList_ofList,
    clean.ofCharacters_characters]
  simp [Path.Route.segments]

/-- A name of an entry is not among the segments that are passed over. -/
theorem IsName.isKept {name : String} (isName : IsName name) :
    (name.toList != [] && name.toList != ['.']) = true := by
  have notEmpty : name.toList ≠ [] := fun empty =>
    isName.nonempty (String.toList_injective empty)
  have notDot : name.toList ≠ ['.'] := fun dot =>
    isName.notDot (String.toList_injective dot)
  simp [notEmpty, notDot]

theorem isAbsolute_intercalate (segments : ∀ name ∈ names, IsSegment name) :
    isAbsolute (String.intercalate "/" names) = false := by
  cases names with
  | nil => rfl
  | cons first rest =>
      have segment := segments first List.mem_cons_self
      have spelled : ∃ others,
          (String.intercalate "/" (first :: rest)).toList =
            first.toList ++ others := by
        cases rest with
        | nil => exact ⟨[], by simp⟩
        | cons second rest =>
            rw [String.intercalate_cons_cons]
            exact ⟨_, by simp [String.toList_append]; rfl⟩
      rcases spelled with ⟨others, spelled⟩
      unfold isAbsolute
      rw [spelled]
      cases characters : first.toList with
      | nil =>
          have empty : first = "" := String.toList_injective characters
          exact absurd empty segment.nonempty
      | cons character characters' =>
          have other : character ≠ '/' := by
            have absent := segment.noSlash
            rw [characters, List.mem_cons, not_or] at absent
            exact Ne.symm absent.1
          simpa using other

end Spelled

/-! ## Ways -/

theorem exists_common (root place : Place) :
    ∃ common, root = common ++ (apart root place).1 ∧
      place = common ++ (apart root place).2 := by
  induction root generalizing place with
  | nil => exact ⟨[], by simp [apart]⟩
  | cons left lefts induction =>
      cases place with
      | nil => exact ⟨[], by simp [apart]⟩
      | cons right rights =>
          unfold apart
          split
          · rename_i same
            rcases induction rights with ⟨common, root, place⟩
            refine ⟨left :: common, ?_, ?_⟩
            · rw [List.cons_append, ← root]
            · rw [List.cons_append, ← place, eq_of_beq same]
          · exact ⟨[], by simp⟩

variable {project : Project} {place place' : Place}

/-- The names on the way from a project to a place. -/
def stepsTo (project : Project) (place : Place) : List String :=
  (apart project.root place).1.map (fun _ => "..") ++
    (apart project.root place).2

/-- The names on the way as they are shown: a single dot for no names. -/
def shownSteps (project : Project) (place : Place) : List String :=
  if project.stepsTo place = [] then ["."] else project.stepsTo place

theorem wayTo_eq (project : Project) (place : Place) :
    project.wayTo place =
      Path.normalized (String.intercalate "/" (project.shownSteps place)) := by
  have dot : Path.normalized (String.intercalate "/" ["."]) = "." := by decide
  unfold wayTo shownSteps stepsTo
  cases apart project.root place with
  | mk left entered =>
      dsimp only
      cases left.map (fun _ => "..") ++ entered with
      | nil => exact dot.symm
      | cons first rest => simp

theorem mem_entered {name : String}
    (member : name ∈ (apart project.root place).2) : name ∈ place := by
  rcases exists_common project.root place with ⟨common, -, whole⟩
  rw [whole]
  exact List.mem_append_right _ member

section Named

variable (named : ∀ name ∈ place, IsName name)
variable (named' : ∀ name ∈ place', IsName name)

include named

theorem eq_dots_or_isName_of_mem_stepsTo {name : String}
    (member : name ∈ project.stepsTo place) : name = ".." ∨ IsName name := by
  rcases List.mem_append.mp member with member | member
  · rcases List.mem_map.mp member with ⟨-, -, rfl⟩
    exact .inl rfl
  · exact .inr (named name (mem_entered member))

theorem isSegment_of_mem_shownSteps {name : String}
    (member : name ∈ project.shownSteps place) : IsSegment name := by
  unfold shownSteps at member
  split at member
  · rw [List.mem_singleton.mp member]
    decide
  · rcases eq_dots_or_isName_of_mem_stepsTo named member with rfl | isName
    · decide
    · exact isName.toIsSegment

theorem stepsTo_ne_dot : project.stepsTo place ≠ ["."] := by
  intro same
  have member : "." ∈ project.stepsTo place := by simp [same]
  rcases eq_dots_or_isName_of_mem_stepsTo named member with dots | isName
  · exact absurd dots (by decide)
  · exact isName.notDot rfl

/-- As many directories are left as there are two dots on the way. -/
theorem count_stepsTo :
    (project.stepsTo place).count ".." =
      (apart project.root place).1.length := by
  have none : (apart project.root place).2.count ".." = 0 := by
    refine List.count_eq_zero.mpr fun member => ?_
    exact (named ".." (mem_entered member)).notDots rfl
  rw [stepsTo, List.count_append, none]
  simp

include named'

theorem eq_of_stepsTo_eq
    (same : project.stepsTo place = project.stepsTo place') :
    place = place' := by
  -- Equally many directories are left, so both ways part at one directory.
  have lengths : (apart project.root place).1.length =
      (apart project.root place').1.length := by
    rw [← count_stepsTo named, same, count_stepsTo named']
  rcases exists_common project.root place with ⟨common, root, whole⟩
  rcases exists_common project.root place' with ⟨common', root', whole'⟩
  rcases List.append_inj' (root.symm.trans root') lengths with
    ⟨commons, lefts⟩
  unfold stepsTo at same
  rw [lefts] at same
  rw [whole, whole', commons, List.append_cancel_left same]

theorem eq_of_shownSteps_eq
    (same : project.shownSteps place = project.shownSteps place') :
    place = place' := by
  have steps : project.stepsTo place = project.stepsTo place' := by
    unfold shownSteps at same
    split at same <;> split at same
    · simp_all
    · exact absurd same.symm (stepsTo_ne_dot named')
    · exact absurd same (stepsTo_ne_dot named)
    · exact same
  exact eq_of_stepsTo_eq named named' steps

theorem eq_of_wayTo_eq (same : project.wayTo place = project.wayTo place') :
    place = place' := by
  have segments (name) (member : name ∈ project.shownSteps place) :=
    isSegment_of_mem_shownSteps named member
  have segments' (name) (member : name ∈ project.shownSteps place') :=
    isSegment_of_mem_shownSteps named' member
  have nonempty (place : Place) : project.shownSteps place ≠ [] := by
    unfold shownSteps
    split <;> simp_all
  rw [wayTo_eq, wayTo_eq, normalized_intercalate segments,
    normalized_intercalate segments'] at same
  exact eq_of_shownSteps_eq named named'
    (eq_of_intercalate_eq segments segments' (nonempty place)
      (nonempty place') same)

omit named'

theorem normalized_wayTo :
    Path.normalized (project.wayTo place) = project.wayTo place := by
  have segments (name) (member : name ∈ project.shownSteps place) :=
    isSegment_of_mem_shownSteps named member
  rw [wayTo_eq, normalized_intercalate segments,
    normalized_intercalate segments]

theorem isAbsolute_wayTo : isAbsolute (project.wayTo place) = false := by
  have segments (name) (member : name ∈ project.shownSteps place) :=
    isSegment_of_mem_shownSteps named member
  rw [wayTo_eq, normalized_intercalate segments]
  exact isAbsolute_intercalate segments

end Named

end SpecAudit.Project

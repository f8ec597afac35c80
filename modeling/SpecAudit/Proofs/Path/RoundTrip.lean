import Mathlib.Data.List.TakeWhile
import SpecAudit.Path.Convention
import SpecAudit.Proofs.Path.Route

/-!
# From sources to specs and back

The spec of a source has `spec` where the source has its first `app`.  On the
way back every `spec` is a candidate, and the candidate nearest the file that
has this spec wins.  So the way back ends at the source unless a `spec` directory
follows its first `app` with no other `app` in between.
-/

namespace SpecAudit.Path

open SpecAudit.Text (beforeWord?_eq_some_iff)

/-! ## Changing one segment -/

section Segments

variable {old new : List Char} {segments before after changed : List (List Char)}

theorem exists_of_swapFirst?_eq_some
    (found : swapFirst? old new segments = some changed) :
    ∃ before after, old ∉ before ∧ segments = before ++ old :: after ∧
      changed = before ++ new :: after := by
  induction segments generalizing changed with
  | nil => cases found
  | cons segment rest induction =>
      rw [swapFirst?] at found
      split at found
      · rename_i same
        cases found
        exact ⟨[], rest, by simp, by rw [same]; rfl, rfl⟩
      · rename_i other
        rcases Option.map_eq_some_iff.mp found with ⟨inner, swapped, rfl⟩
        rcases induction swapped with ⟨before, after, fresh, rfl, rfl⟩
        refine ⟨segment :: before, after, ?_, rfl, rfl⟩
        rw [List.mem_cons, not_or]
        exact ⟨Ne.symm other, fresh⟩

/-- A segment is the one that is changed exactly if none stands before it. -/
theorem swapFirst?_append_iff (different : old ≠ new) :
    swapFirst? old new (before ++ old :: after) =
        some (before ++ new :: after) ↔
      old ∉ before := by
  induction before with
  | nil => simp [swapFirst?]
  | cons first rest induction =>
      rw [List.cons_append, swapFirst?]
      split
      · rename_i same
        simp [same, different.symm]
      · rename_i other
        simp [induction, Ne.symm other]

theorem swaps_append (left right : List (List Char)) :
    swaps old new (left ++ right) =
      (swaps old new right).map (left ++ ·) ++
        (swaps old new left).map (· ++ right) := by
  induction left with
  | nil => simp [swaps]
  | cons segment rest induction =>
      rw [List.cons_append, swaps, swaps, induction]
      split <;> simp [Function.comp_def]

theorem mem_swaps_iff {candidate : List (List Char)} :
    candidate ∈ swaps old new segments ↔
      ∃ before after, segments = before ++ old :: after ∧
        candidate = before ++ new :: after := by
  induction segments generalizing candidate with
  | nil => simp [swaps]
  | cons segment rest induction =>
      rw [swaps, List.mem_append, List.mem_map]
      constructor
      · rintro (⟨inner, member, rfl⟩ | member)
        · rcases induction.mp member with ⟨before, after, rfl, rfl⟩
          exact ⟨segment :: before, after, rfl, rfl⟩
        · split at member
          · rename_i same
            rw [List.mem_singleton.mp member]
            exact ⟨[], rest, by rw [same]; rfl, rfl⟩
          · cases member
      · rintro ⟨before, after, split, rfl⟩
        cases before with
        | nil =>
            cases split
            right
            simp
        | cons first before =>
            cases split
            left
            exact ⟨before ++ new :: after,
              induction.mpr ⟨before, after, rfl, rfl⟩, rfl⟩

end Segments

/-! ## The candidate that is found -/

/-- Whether a directory is one that holds sources or specs. -/
def isMarker (segment : List Char) : Bool :=
  segment == appMarker || segment == specMarker

/-- The directories that follow the first `app` directory. -/
def Route.innerDirectories (route : Route) : List (List Char) :=
  (route.directories.dropWhile (· != appMarker)).drop 1

section Candidates

variable {before after : List (List Char)}

/-- The first marker is `spec` exactly if some `spec` has no `app` before it. -/
theorem find?_isMarker_eq_some_iff :
    after.find? isMarker = some specMarker ↔
      ∃ inner rest, appMarker ∉ inner ∧
        after = inner ++ specMarker :: rest := by
  constructor
  · intro found
    rcases List.find?_eq_some_iff_append.mp found with
      ⟨-, inner, rest, rfl, unmarked⟩
    refine ⟨inner, rest, fun member => ?_, rfl⟩
    have marked := unmarked appMarker member
    simp [isMarker] at marked
  · rintro ⟨inner, rest, fresh, rfl⟩
    induction inner with
    | nil => rfl
    | cons first inner induction =>
        rw [List.mem_cons, not_or] at fresh
        rw [List.cons_append, List.find?_cons]
        by_cases isSpec : first = specMarker
        · simp [isSpec, isMarker]
        · have unmarked : isMarker first = false := by
            simp [isMarker, isSpec, Ne.symm fresh.1]
          rw [unmarked]
          exact induction fresh.2

/--
Of the candidates for a spec, the one that undoes the change of the source is
found exactly if no `spec` follows before the next `app`.
-/
theorem find?_swaps_eq_some_iff (fresh : appMarker ∉ before) :
    (swaps specMarker appMarker (before ++ specMarker :: after)).find?
        (fun candidate => swapFirst? appMarker specMarker candidate =
          some (before ++ specMarker :: after)) =
        some (before ++ appMarker :: after) ↔
      after.find? isMarker ≠ some specMarker := by
  have different : appMarker ≠ specMarker := by decide
  rw [swaps_append, List.find?_append, swaps, if_pos rfl, List.map_append,
    List.find?_append, List.map_map]
  -- The candidates behind the changed segment are tried first.
  cases tried : ((swaps specMarker appMarker after).map
      ((before ++ ·) ∘ (specMarker :: ·))).find?
      (fun candidate => swapFirst? appMarker specMarker candidate =
        some (before ++ specMarker :: after)) with
  | some candidate =>
      have holds := List.find?_some tried
      rcases List.mem_map.mp (List.mem_of_find?_eq_some tried) with
        ⟨inner, member, rfl⟩
      rcases mem_swaps_iff.mp member with ⟨left, right, rfl, rfl⟩
      have goes : appMarker ∉ before ++ specMarker :: left := by
        apply (swapFirst?_append_iff different).mp
        simpa using holds
      have precedes : appMarker ∉ left := fun member =>
        goes (List.mem_append_right _ (List.mem_cons_of_mem _ member))
      have marked : (left ++ specMarker :: right).find? isMarker =
          some specMarker :=
        find?_isMarker_eq_some_iff.mpr ⟨left, right, precedes, rfl⟩
      simp [marked, different.symm]
  | none =>
      have returns : swapFirst? appMarker specMarker
          (before ++ appMarker :: after) =
            some (before ++ specMarker :: after) :=
        (swapFirst?_append_iff different).mpr fresh
      have unmarked : after.find? isMarker ≠ some specMarker := by
        intro marked
        rcases find?_isMarker_eq_some_iff.mp marked with
          ⟨left, right, precedes, rfl⟩
        have fails := List.find?_eq_none.mp tried
          (before ++ specMarker :: (left ++ appMarker :: right))
          (List.mem_map_of_mem (mem_swaps_iff.mpr ⟨left, right, rfl, rfl⟩))
        have goes : swapFirst? appMarker specMarker
            ((before ++ specMarker :: left) ++ appMarker :: right) =
              some ((before ++ specMarker :: left) ++ specMarker :: right) :=
          (swapFirst?_append_iff different).mpr (by
            simp [fresh, precedes, different])
        rw [List.append_assoc, List.append_assoc] at goes
        exact fails (by simpa using goes)
      simp [returns, unmarked]

end Candidates

/-! ## Routes -/

namespace Route

variable {source spec : Route}

/-- The parts of a source that has a spec, and those of the spec. -/
theorem exists_of_spec?_eq_some (found : source.spec? = some spec) :
    ∃ before after stem, appMarker ∉ before ∧
      source = ⟨before ++ appMarker :: after, stem ++ sourceEnding⟩ ∧
      spec = ⟨before ++ specMarker :: after, stem ++ specEnding⟩ ∧
      Text.beforeWord? specEnding (stem ++ sourceEnding) = none := by
  rcases source with ⟨directories, file⟩
  rw [spec?] at found
  split at found
  · cases found
  · rename_i plain
    cases ends : Text.beforeWord? sourceEnding file with
    | none => simp [ends] at found
    | some stem =>
        cases swapped : swapFirst? appMarker specMarker directories with
        | none => simp [ends, swapped] at found
        | some changed =>
            rw [ends, swapped] at found
            injection found with made
            rcases exists_of_swapFirst?_eq_some swapped with
              ⟨before, after, fresh, rfl, rfl⟩
            have named := beforeWord?_eq_some_iff.mp ends
            rw [named] at plain
            exact ⟨before, after, stem, fresh, by rw [named], made.symm,
              by simpa using plain⟩

theorem spec?_of_plain {stem : List Char}
    (plain : Text.beforeWord? specEnding (stem ++ sourceEnding) = none)
    (directories : List (List Char)) :
    spec? ⟨directories, stem ++ sourceEnding⟩ =
      (swapFirst? appMarker specMarker directories).map
        fun changed => ⟨changed, stem ++ specEnding⟩ := by
  have ends : Text.beforeWord? sourceEnding (stem ++ sourceEnding) = some stem :=
    beforeWord?_eq_some_iff.mpr rfl
  rw [spec?, plain, ends]
  cases swapFirst? appMarker specMarker directories <;> rfl

theorem innerDirectories_of_not_mem {before after : List (List Char)}
    (fresh : appMarker ∉ before) (file : List Char) :
    innerDirectories ⟨before ++ appMarker :: after, file⟩ = after := by
  have passed : before.dropWhile (· != appMarker) = [] :=
    List.dropWhile_eq_nil_iff.mpr fun segment member => by
      simpa using fun same : segment = appMarker => fresh (same ▸ member)
  simp [innerDirectories, List.dropWhile_append, passed]

/-- The spec of a source has that source exactly if no `spec` is in the way. -/
theorem source?_eq_some_iff (found : source.spec? = some spec) :
    spec.source? = some source ↔
      source.innerDirectories.find? isMarker ≠ some specMarker := by
  rcases exists_of_spec?_eq_some found with
    ⟨before, after, stem, fresh, rfl, rfl, plain⟩
  have ends : Text.beforeWord? specEnding (stem ++ specEnding) = some stem :=
    beforeWord?_eq_some_iff.mpr rfl
  have injective : Function.Injective fun directories =>
      (⟨directories, stem ++ sourceEnding⟩ : Route) :=
    fun left right same => congrArg Route.directories same
  have returns (directories : List (List Char)) :
      (spec? ⟨directories, stem ++ sourceEnding⟩ =
        some ⟨before ++ specMarker :: after, stem ++ specEnding⟩) ↔
      swapFirst? appMarker specMarker directories =
        some (before ++ specMarker :: after) := by
    rw [spec?_of_plain plain]
    simp
  rw [innerDirectories_of_not_mem fresh, ← find?_swaps_eq_some_iff fresh,
    source?, ends]
  simp only [Option.bind_eq_bind, Option.bind_some, List.find?_map,
    Function.comp_def, returns]
  constructor
  · intro whole
    rcases Option.map_eq_some_iff.mp whole with ⟨directories, chosen, same⟩
    rw [chosen, injective same]
  · intro chosen
    rw [chosen, Option.map_some]

/-- A directory and the ending of the file can be changed for clean ones. -/
theorem IsClean.change {stem suffix ending : List Char}
    {before after : List (List Char)} {marker other : List Char}
    (clean : IsClean ⟨before ++ marker :: after, stem ++ suffix⟩)
    (cleanMarker : '/' ∉ other ∧ '\\' ∉ other)
    (cleanEnding : '/' ∉ ending ∧ '\\' ∉ ending) :
    IsClean ⟨before ++ other :: after, stem ++ ending⟩ := by
  have inStem := clean (stem ++ suffix) (by simp [segments])
  simp only [List.mem_append, not_or] at inStem
  intro segment member
  simp only [segments, List.append_assoc, List.cons_append, List.mem_append,
    List.mem_cons, List.not_mem_nil, or_false] at member
  rcases member with member | rfl | member | rfl
  · exact clean segment (by simp [segments, member])
  · exact cleanMarker
  · exact clean segment (by simp [segments, member])
  · simp only [List.mem_append, not_or]
    exact ⟨⟨inStem.1.1, cleanEnding.1⟩, ⟨inStem.2.1, cleanEnding.2⟩⟩

theorem IsClean.of_spec?_eq_some (clean : source.IsClean)
    (found : source.spec? = some spec) : spec.IsClean := by
  rcases exists_of_spec?_eq_some found with
    ⟨before, after, stem, -, rfl, rfl, -⟩
  exact clean.change (by decide) (by decide)

theorem IsClean.of_source?_eq_some (clean : spec.IsClean)
    (found : spec.source? = some source) : source.IsClean := by
  rcases spec with ⟨directories, file⟩
  rw [source?] at found
  cases ends : Text.beforeWord? specEnding file with
  | none => simp [ends] at found
  | some stem =>
      rw [ends] at found
      rcases List.mem_map.mp (List.mem_of_find?_eq_some found) with
        ⟨changed, member, rfl⟩
      rcases mem_swaps_iff.mp member with ⟨before, after, rfl, rfl⟩
      rw [beforeWord?_eq_some_iff.mp ends] at clean
      exact clean.change (by decide) (by decide)

end Route

/-! ## Paths -/

variable {source spec : String}

theorem route_of_specPath?_eq_some (found : specPath? source = some spec) :
    (route source).spec? = some (route spec) := by
  rcases Option.map_eq_some_iff.mp found with ⟨conventional, has, rfl⟩
  rw [((isClean_route source).of_spec?_eq_some has).route_text, has]

theorem sourcePath?_eq_some_normalized_iff :
    sourcePath? spec = some (normalized source) ↔
      (route spec).source? = some (route source) := by
  constructor
  · intro found
    rcases Option.map_eq_some_iff.mp found with ⟨origin, has, same⟩
    have clean := (isClean_route spec).of_source?_eq_some has
    rw [← text_route] at same
    rw [has, ← clean.route_text, same, (isClean_route source).route_text]
  · intro found
    rw [sourcePath?, found, Option.map_some, text_route]

theorem innerDirectories_unmarked (plain : isSpecFile source = false) :
    (route source).innerDirectories.find? isMarker ≠ some specMarker := by
  intro marked
  have inner := List.mem_of_find?_eq_some marked
  have listed : specMarker ∈ (route source).directories :=
    (List.dropWhile_sublist _).subset (List.mem_of_mem_drop inner)
  simp [isSpecFile, listed] at plain

/--
The way back from a spec ends at its source exactly if, of the `app` and `spec`
directories behind the first `app` of the source, the first one is no `spec`.
It always does for a source that is no spec file, so no two of these share a
spec.
-/
theorem sourcePath?_eq_normalized_iff (found : specPath? source = some spec) :
    (sourcePath? spec = some (normalized source) ↔
      (route source).innerDirectories.find? isMarker ≠ some specMarker) ∧
    (isSpecFile source = false → sourcePath? spec = some (normalized source)) ∧
    ∀ other, specPath? other = some spec →
      isSpecFile source = false → isSpecFile other = false →
      normalized other = normalized source := by
  have returns {source : String} (found : specPath? source = some spec) :
      sourcePath? spec = some (normalized source) ↔
        (route source).innerDirectories.find? isMarker ≠ some specMarker := by
    rw [sourcePath?_eq_some_normalized_iff]
    exact Route.source?_eq_some_iff (route_of_specPath?_eq_some found)
  refine ⟨returns found, ?_, ?_⟩
  · intro plain
    exact (returns found).mpr (innerDirectories_unmarked plain)
  · intro other shared plain otherPlain
    have left := (returns found).mpr (innerDirectories_unmarked plain)
    have right := (returns shared).mpr (innerDirectories_unmarked otherPlain)
    exact Option.some.inj (right.symm.trans left)

/--
An inner `app` keeps a later `spec` out of the way, and without it the way back
ends elsewhere.
-/
theorem sourcePath?_eq_normalized_iff_nested :
    sourcePath? "/spec/spec/app/spec/user_spec.rb" =
        some "/spec/app/app/spec/user.rb" ∧
      sourcePath? "spec/spec/user_spec.rb" ≠ some "app/spec/user.rb" := by
  constructor
  · have found : specPath? "/spec/app/app/spec/user.rb" =
        some "/spec/spec/app/spec/user_spec.rb" := by
      decide +kernel
    exact (sourcePath?_eq_normalized_iff found).1.mpr (by decide +kernel)
  · have found : specPath? "app/spec/user.rb" =
        some "spec/spec/user_spec.rb" := by
      decide +kernel
    have returns := (sourcePath?_eq_normalized_iff found).1
    rw [show normalized "app/spec/user.rb" = "app/spec/user.rb" by
      decide +kernel] at returns
    rw [ne_eq, returns]
    decide +kernel

end SpecAudit.Path

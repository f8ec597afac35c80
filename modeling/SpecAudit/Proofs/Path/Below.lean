import SpecAudit.Proofs.Path.Nearest

/-!
# Paths below a root

A path that is put below a root has the segments of the root in front of its
own.  What a path says of itself lies behind its first `app`, or in the `spec`
directories that it has.  So a root without such segments changes none of it:
a path below the root has the spec and the source that it has by itself, below
the root, and it passes the same tests.
-/

namespace SpecAudit.Path

open SpecAudit.Text (afterWord?_eq_some_iff beforeWord?_eq_some_iff)

/-- A path put below a root. -/
def below (root path : String) : String :=
  root ++ "/" ++ path

/-- Whether none of the segments of a root is one of those that paths are read
by. -/
structure IsPlainRoot (root : String) : Prop where
  nonempty : root ≠ ""
  noBackslash : '\\' ∉ root.toList
  noSources : appMarker ∉ (route root).segments
  noSpecs : specMarker ∉ (route root).segments

instance (root : String) : Decidable (IsPlainRoot root) :=
  decidable_of_iff
    (root ≠ "" ∧ '\\' ∉ root.toList ∧ appMarker ∉ (route root).segments ∧
      specMarker ∉ (route root).segments)
    ⟨fun parts => ⟨parts.1, parts.2.1, parts.2.2.1, parts.2.2.2⟩,
      fun plain => ⟨plain.nonempty, plain.noBackslash, plain.noSources,
        plain.noSpecs⟩⟩

/-! ## Segments in front -/

section Front

variable {old new : List Char} {front segments wanted : List (List Char)}

theorem swapFirst?_front (absent : old ∉ front) :
    swapFirst? old new (front ++ segments) =
      (swapFirst? old new segments).map (front ++ ·) := by
  induction front with
  | nil => simp
  | cons first front induction =>
      rw [List.mem_cons, not_or] at absent
      rw [List.cons_append, swapFirst?, if_neg (Ne.symm absent.1),
        induction absent.2, Option.map_map]
      rfl

theorem swaps_eq_nil (absent : old ∉ segments) : swaps old new segments = [] := by
  refine List.eq_nil_iff_forall_not_mem.mpr fun candidate member => ?_
  rcases mem_swaps_iff.mp member with ⟨before, after, rfl, -⟩
  simp at absent

theorem swaps_front (absent : old ∉ front) :
    swaps old new (front ++ segments) =
      (swaps old new segments).map (front ++ ·) := by
  rw [swaps_append, swaps_eq_nil absent, List.map_nil, List.append_nil]

theorem holdsSegments_front (absent : old ∉ front) :
    holdsSegments (old :: wanted) (front ++ segments) =
      holdsSegments (old :: wanted) segments := by
  induction front with
  | nil => rfl
  | cons first front induction =>
      rw [List.mem_cons, not_or] at absent
      have differs : (old == first) = false := by simpa using absent.1
      rw [List.cons_append, holdsSegments, startsWithSegments, differs,
        Bool.false_and, Bool.false_or, induction absent.2]

end Front

namespace Route

variable {front : List (List Char)} {route source spec : Route}

/-- A route with further segments in front. -/
def under (front : List (List Char)) (route : Route) : Route :=
  ⟨front ++ route.directories, route.file⟩

theorem under_injective (front : List (List Char)) :
    Function.Injective (under front) := by
  rintro ⟨directories, file⟩ ⟨directories', file'⟩ same
  injection same with directories file
  exact Route.mk.injEq .. |>.mpr ⟨List.append_cancel_left directories, file⟩

theorem segments_under (front : List (List Char)) (route : Route) :
    (route.under front).segments = front ++ route.segments :=
  List.append_assoc ..

/-- What stands before a slash is read in front of what stands behind it. -/
theorem ofCharacters_append (left right : List Char) :
    ofCharacters (left ++ '/' :: right) =
      (ofCharacters right).under (ofCharacters left).segments := by
  induction left with
  | nil => rfl
  | cons character left induction =>
      change (ofCharacters (left ++ '/' :: right)).push character =
        (ofCharacters right).under ((ofCharacters left).push character).segments
      rw [induction]
      by_cases isSlash : character = '/'
      · rw [isSlash, segments_push_slash]
        rfl
      · rcases segments_push isSlash (ofCharacters left) with
          ⟨first, rest, read, pushed⟩
        rw [read, pushed, push, if_neg isSlash]
        rfl

/-- Segments in front of a route are spelled in front of it. -/
theorem text_under (root route : Route) :
    (route.under root.segments).text = below root.text route.text := by
  apply String.ext
  simp [text, characters, under, segments, below]

theorem spec?_under (absent : appMarker ∉ front) (route : Route) :
    (route.under front).spec? = route.spec?.map (under front) := by
  unfold spec? under
  split
  · rfl
  · cases Text.beforeWord? sourceEnding route.file with
    | none => rfl
    | some stem =>
        rw [swapFirst?_front absent]
        cases swapFirst? appMarker specMarker route.directories <;> rfl

theorem candidates_front (absent : specMarker ∉ front)
    (directories : List (List Char)) (stem : List Char) :
    candidates (front ++ directories) stem =
      (candidates directories stem).map (under front) := by
  rw [candidates, candidates, swaps_front absent, List.map_map, List.map_map]
  rfl

theorem source?_under (noSources : appMarker ∉ front)
    (noSpecs : specMarker ∉ front) (route : Route) :
    (route.under front).source? = route.source?.map (under front) := by
  rcases route with ⟨directories, file⟩
  cases ends : Text.beforeWord? specEnding file with
  | none => simp [source?, under, ends]
  | some stem =>
      rw [beforeWord?_eq_some_iff.mp ends]
      have sameSpec (candidate : Route) :
          (candidate.under front).spec? =
              some ⟨front ++ directories, stem ++ specEnding⟩ ↔
            candidate.spec? = some ⟨directories, stem ++ specEnding⟩ := by
        rw [spec?_under noSources]
        exact (Option.map_injective (under_injective front)).eq_iff
          (b := some ⟨directories, stem ++ specEnding⟩)
      change source? ⟨front ++ directories, stem ++ specEnding⟩ = _
      rw [source?_eq_find?, source?_eq_find?, candidates_front noSpecs,
        List.find?_map]
      simp only [Function.comp_def, sameSpec]

end Route

/-! ## Paths -/

section Paths

variable {root path spec : String}

theorem route_below (root path : String) :
    route (below root path) = (route path).under (route root).segments := by
  have spelled : normalizedCharacters (below root path) =
      normalizedCharacters root ++ '/' :: normalizedCharacters path := by
    simp [normalizedCharacters, below]
  rw [route, spelled, Route.ofCharacters_append]
  rfl

theorem text_under_route (noBackslash : '\\' ∉ root.toList) (route' : Route) :
    (route'.under (route root).segments).text = below root route'.text := by
  rw [Route.text_under, text_route, normalized_of_noBackslash noBackslash]

theorem map_text_under (noBackslash : '\\' ∉ root.toList)
    (found : Option Route) :
    (found.map (Route.under (route root).segments)).map Route.text =
      (found.map Route.text).map (below root) := by
  rw [Option.map_map, Option.map_map]
  exact congrArg (Option.map · found)
    (funext fun route' => text_under_route noBackslash route')

theorem specPath?_below (plain : IsPlainRoot root) (path : String) :
    specPath? (below root path) = (specPath? path).map (below root) := by
  rw [specPath?, route_below, Route.spec?_under plain.noSources,
    map_text_under plain.noBackslash]
  rfl

theorem sourcePath?_below (plain : IsPlainRoot root) (path : String) :
    sourcePath? (below root path) = (sourcePath? path).map (below root) := by
  rw [sourcePath?, route_below,
    Route.source?_under plain.noSources plain.noSpecs,
    map_text_under plain.noBackslash]
  rfl

theorem isUnder_below (plain : IsPlainRoot root) (directory path : String) :
    isUnder directory (below root path) = isUnder directory path := by
  rw [isUnder, route_below]
  exact holdsSegments_front plain.noSources

theorem isCovered_below (plain : IsPlainRoot root) (covered : List String)
    (path : String) :
    isCovered covered (below root path) = isCovered covered path := by
  simp only [isCovered, isUnder_below plain]

theorem isService_below (plain : IsPlainRoot root) (path : String) :
    isService (below root path) = isService path :=
  isUnder_below plain servicesDirectory path

theorem isSpecFile_below (plain : IsPlainRoot root) (path : String) :
    isSpecFile (below root path) = isSpecFile path := by
  unfold isSpecFile
  rw [route_below]
  simp [Route.under, plain.noSpecs]

theorem shouldCheck_below (plain : IsPlainRoot root) (covered : List String)
    (path : String) :
    shouldCheck covered (below root path) = shouldCheck covered path := by
  rw [shouldCheck, isSpecFile_below plain, isCovered_below plain]
  rfl

end Paths

/-! ## Specs of relative paths -/

/-- Whether a path has forward slashes only and does not start with one. -/
structure IsRelative (path : String) : Prop where
  isNormal : normalized path = path
  startsInside : path.toList.head? ≠ some '/'

instance (path : String) : Decidable (IsRelative path) :=
  decidable_of_iff
    (normalized path = path ∧ path.toList.head? ≠ some '/')
    ⟨fun parts => ⟨parts.1, parts.2⟩,
      fun relative => ⟨relative.isNormal, relative.startsInside⟩⟩

section Relative

variable {root path spec : String} {before after : List (List Char)}

theorem IsRelative.noBackslash (relative : IsRelative path) :
    '\\' ∉ path.toList := by
  rw [← relative.isNormal, normalized, String.toList_ofList]
  exact noBackslash_normalizedCharacters path

/-- The parts of a relative path that has a spec, and those of the spec. -/
theorem IsRelative.exists_of_specPath? (relative : IsRelative path)
    (found : specPath? path = some spec) :
    ∃ before after stem, appMarker ∉ before ∧ before.head? ≠ some [] ∧
      route path = ⟨before ++ appMarker :: after, stem ++ sourceEnding⟩ ∧
      route spec = ⟨before ++ specMarker :: after, stem ++ specEnding⟩ := by
  rcases Route.exists_of_spec?_eq_some (route_of_specPath?_eq_some found) with
    ⟨before, after, stem, fresh, source, conventional, -⟩
  refine ⟨before, after, stem, fresh, ?_, source, conventional⟩
  intro empty
  apply relative.startsInside
  rw [← relative.isNormal, ← text_route, source]
  cases before with
  | nil => cases empty
  | cons first rest =>
      cases empty
      rw [Route.text, String.toList_ofList]
      rfl

theorem IsRelative.of_specPath? (relative : IsRelative path)
    (found : specPath? path = some spec) : IsRelative spec := by
  rcases relative.exists_of_specPath? found with
    ⟨before, after, stem, -, named, source, conventional⟩
  have isNormal : normalized spec = spec := by
    rcases Option.map_eq_some_iff.mp found with ⟨origin, has, rfl⟩
    have clean := (isClean_route path).of_spec?_eq_some has
    rw [← text_route, clean.route_text]
  refine ⟨isNormal, ?_⟩
  have inside := relative.startsInside
  rw [← relative.isNormal, ← text_route, source, Route.text,
    String.toList_ofList] at inside
  rw [← isNormal, ← text_route, conventional, Route.text,
    String.toList_ofList]
  cases before with
  | nil =>
      change some 's' ≠ some '/'
      decide
  | cons first rest =>
      cases first with
      | nil => simp at named
      | cons character first => exact inside

theorem projectRoot?_of_segments (fresh : appMarker ∉ before)
    (read : (route path).segments = before ++ appMarker :: after) :
    projectRoot? path = some (String.ofList (joined before)) := by
  have passed : ∀ segment ∈ before, decide (segment ≠ appMarker) = true := by
    intro segment member
    exact decide_eq_true fun same => fresh (same ▸ member)
  have taken : (before ++ appMarker :: after).takeWhile (· ≠ appMarker) =
      before := by
    rw [List.takeWhile_append_of_pos passed]
    simp
  unfold projectRoot?
  dsimp only
  rw [read, taken]
  simp

theorem joined_append_slash (nonempty : before ≠ []) :
    joined before ++ ['/'] = before.flatMap (· ++ ['/']) := by
  induction before using joined.induct with
  | case1 => contradiction
  | case2 => simp [joined]
  | case3 first rest several induction =>
      rw [joined, List.flatMap_cons, ← induction several]
      · simp
      · exact several

theorem joined_eq_nil (empty : joined before = []) :
    before = [] ∨ before = [[]] := by
  cases before using joined.fun_cases with
  | case1 => exact .inl rfl
  | case2 segment => exact .inr (by rw [← empty]; rfl)
  | case3 first rest several =>
      rw [joined] at empty
      · simp at empty
      · exact several

/-- A spec is seen from the directory that holds the `app` of its source. -/
theorem relativeSpecPath_of_segments (fresh : appMarker ∉ before)
    (named : before ≠ [[]])
    (read : (route path).segments = before ++ appMarker :: after)
    (inner : Route) :
    relativeSpecPath (inner.under before).text path = inner.text := by
  unfold relativeSpecPath
  rw [projectRoot?_of_segments fresh read]
  dsimp only
  by_cases direct : before = []
  · subst direct
    rfl
  · have rooted : joined before ≠ [] := fun empty =>
      (joined_eq_nil empty).elim direct named
    have cut : Text.afterWord? (joined before ++ ['/'])
        (inner.under before).text.toList = some inner.characters := by
      rw [afterWord?_eq_some_iff, Route.text, String.toList_ofList,
        joined_append_slash direct]
      simp [Route.characters, Route.under]
    rw [String.toList_ofList, cut]
    simp [rooted, Route.text]

theorem IsPlainRoot.segments_append_ne (plain : IsPlainRoot root)
    (before : List (List Char)) : (route root).segments ++ before ≠ [[]] := by
  intro same
  rw [Route.segments, List.append_assoc] at same
  rcases List.append_eq_singleton_iff.mp same with ⟨direct, rest⟩ | ⟨-, none⟩
  · injection rest with empty
    apply plain.nonempty
    rw [← normalized_of_noBackslash plain.noBackslash, ← text_route,
      Route.text, Route.characters, direct, empty]
    rfl
  · simp at none

theorem relativeSpecPath_below (plain : IsPlainRoot root)
    (relative : IsRelative path) (found : specPath? path = some spec) :
    relativeSpecPath (below root spec) (below root path) =
      relativeSpecPath spec path := by
  rcases relative.exists_of_specPath? found with
    ⟨before, after, stem, fresh, named, source, conventional⟩
  have isNormal := (relative.of_specPath? found).isNormal
  let inner : Route := ⟨specMarker :: after, stem ++ specEnding⟩
  have spelled : spec = (inner.under before).text := by
    rw [← isNormal, ← text_route, conventional]
    rfl
  have read : (route path).segments =
      before ++ appMarker :: (after ++ [stem ++ sourceEnding]) := by
    rw [source]
    simp [Route.segments]
  have freshBelow : appMarker ∉ (route root).segments ++ before := by
    simp [plain.noSources, fresh]
  have readBelow : (route (below root path)).segments =
      ((route root).segments ++ before) ++
        appMarker :: (after ++ [stem ++ sourceEnding]) := by
    rw [route_below, Route.segments_under, read, List.append_assoc]
  have spelledBelow : below root spec =
      (inner.under ((route root).segments ++ before)).text := by
    rw [spelled, ← text_under_route plain.noBackslash]
    simp [Route.under]
  have namedHere : before ≠ [[]] := fun same => named (by rw [same]; rfl)
  rw [spelledBelow,
    relativeSpecPath_of_segments freshBelow (plain.segments_append_ne before)
      readBelow, spelled,
    relativeSpecPath_of_segments fresh namedHere read]

/-- Whether a path says of itself below a root what it says by itself. -/
structure ReadsAlike (root path : String) (covered : List String) : Prop where
  spec : specPath? (below root path) = (specPath? path).map (below root)
  source : sourcePath? (below root path) = (sourcePath? path).map (below root)
  isCovered : isCovered covered (below root path) = isCovered covered path
  isService : isService (below root path) = isService path
  isSpecFile : isSpecFile (below root path) = isSpecFile path
  shouldCheck : shouldCheck covered (below root path) = shouldCheck covered path
  relativeSpec : ∀ spec, specPath? path = some spec →
    relativeSpecPath (below root spec) (below root path) =
      relativeSpecPath spec path

theorem IsPlainRoot.readsAlike (plain : IsPlainRoot root)
    (relative : IsRelative path) (covered : List String) :
    ReadsAlike root path covered where
  spec := specPath?_below plain path
  source := sourcePath?_below plain path
  isCovered := isCovered_below plain covered path
  isService := isService_below plain path
  isSpecFile := isSpecFile_below plain path
  shouldCheck := shouldCheck_below plain covered path
  relativeSpec := fun _ found => relativeSpecPath_below plain relative found

end Relative

end SpecAudit.Path

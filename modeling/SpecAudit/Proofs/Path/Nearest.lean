import SpecAudit.Proofs.Path.RoundTrip

/-!
# All sources of a spec

Several sources may have one spec: they differ in which of its `spec`
directories is `app`.  Each of them is a candidate on the way back, and the
candidates are tried from the file upwards.  So the way back ends nowhere only
if the spec has no source at all, and otherwise at the source whose `app` is
nearest the file.
-/

namespace SpecAudit.Path

open SpecAudit.Text (beforeWord?_eq_some_iff)

/-! ## The order of the candidates -/

/-- Whether two lists come from one by a change, which in the first is later. -/
def ChangesLater (old new : List Char)
    (segments later earlier : List (List Char)) : Prop :=
  ∃ before between after,
    segments = before ++ old :: (between ++ old :: after) ∧
      later = before ++ old :: (between ++ new :: after) ∧
      earlier = before ++ new :: (between ++ old :: after)

/-- The later a segment is, the earlier its change is tried. -/
theorem pairwise_swaps (old new : List Char) (segments : List (List Char)) :
    (swaps old new segments).Pairwise (ChangesLater old new segments) := by
  induction segments with
  | nil => exact .nil
  | cons segment rest induction =>
      rw [swaps, List.pairwise_append]
      refine ⟨?_, ?_, ?_⟩
      · refine List.pairwise_map.mpr (induction.imp ?_)
        rintro _ _ ⟨before, between, after, rfl, rfl, rfl⟩
        exact ⟨segment :: before, between, after, rfl, rfl, rfl⟩
      · split <;> simp
      · intro later isLater earlier isEarlier
        split at isEarlier
        · rename_i same
          rw [List.mem_singleton.mp isEarlier]
          rcases List.mem_map.mp isLater with ⟨changed, member, rfl⟩
          rcases mem_swaps_iff.mp member with ⟨between, after, rfl, rfl⟩
          exact ⟨[], between, after, by rw [same]; rfl, by rw [same]; rfl, rfl⟩
        · cases isEarlier

namespace Route

variable {source other spec : Route}

/-! ## Candidates and sources -/

/-- The routes that may be the source of a spec with that stem. -/
def candidates (directories : List (List Char)) (stem : List Char) :
    List Route :=
  (swaps specMarker appMarker directories).map
    fun changed => ⟨changed, stem ++ sourceEnding⟩

theorem source?_eq_find? (directories : List (List Char)) (stem : List Char) :
    source? ⟨directories, stem ++ specEnding⟩ =
      (candidates directories stem).find?
        fun candidate =>
          candidate.spec? = some ⟨directories, stem ++ specEnding⟩ := by
  have ends : Text.beforeWord? specEnding (stem ++ specEnding) = some stem :=
    beforeWord?_eq_some_iff.mpr rfl
  rw [source?, ends]
  rfl

/-- Every source of a spec is one of its candidates. -/
theorem exists_candidates_of_spec?_eq_some (found : source.spec? = some spec) :
    ∃ directories stem, spec = ⟨directories, stem ++ specEnding⟩ ∧
      source ∈ candidates directories stem := by
  rcases exists_of_spec?_eq_some found with
    ⟨before, after, stem, -, rfl, rfl, -⟩
  refine ⟨_, stem, rfl, ?_⟩
  exact List.mem_map_of_mem (mem_swaps_iff.mpr ⟨before, after, rfl, rfl⟩)

theorem spec?_of_source?_eq_some (found : spec.source? = some source) :
    source.spec? = some spec := by
  rcases spec with ⟨directories, file⟩
  cases ends : Text.beforeWord? specEnding file with
  | none => simp [source?, ends] at found
  | some stem =>
      rw [beforeWord?_eq_some_iff.mp ends] at found ⊢
      rw [source?_eq_find?] at found
      simpa using List.find?_some found

theorem source?_eq_none_iff :
    spec.source? = none ↔ ∀ source : Route, source.spec? ≠ some spec := by
  constructor
  · intro missing source found
    rcases exists_candidates_of_spec?_eq_some found with
      ⟨directories, stem, rfl, candidate⟩
    rw [source?_eq_find?] at missing
    exact List.find?_eq_none.mp missing source candidate (by simpa using found)
  · intro never
    cases found : spec.source? with
    | none => rfl
    | some source => exact absurd (spec?_of_source?_eq_some found) (never source)

/-! ## The nearest source -/

theorem swapFirst?_of_spec?_eq_some {changed directories : List (List Char)}
    {stem : List Char}
    (found : spec? ⟨changed, stem ++ sourceEnding⟩ =
      some ⟨directories, stem ++ specEnding⟩) :
    swapFirst? appMarker specMarker changed = some directories := by
  rcases exists_of_spec?_eq_some found with
    ⟨before, after, stem', fresh, source, spec, -⟩
  injection source with source
  injection spec with spec
  rw [source, spec]
  exact (swapFirst?_append_iff (by decide)).mpr fresh

/-- Of two sources of a spec the one with the later change has a later `app`. -/
theorem innerDirectories_lt_of_changesLater
    {directories later earlier : List (List Char)} {stem : List Char}
    (changes :
      ChangesLater specMarker appMarker directories later earlier)
    (ofLater : spec? ⟨later, stem ++ sourceEnding⟩ =
      some ⟨directories, stem ++ specEnding⟩)
    (ofEarlier : spec? ⟨earlier, stem ++ sourceEnding⟩ =
      some ⟨directories, stem ++ specEnding⟩) :
    (innerDirectories ⟨later, stem ++ sourceEnding⟩).length <
      (innerDirectories ⟨earlier, stem ++ sourceEnding⟩).length := by
  have different : appMarker ≠ specMarker := by decide
  rcases changes with ⟨before, between, after, rfl, rfl, rfl⟩
  have freshEarlier : appMarker ∉ before :=
    (swapFirst?_append_iff different).mp
      (swapFirst?_of_spec?_eq_some ofEarlier)
  have freshLater : appMarker ∉ before ++ specMarker :: between := by
    apply (swapFirst?_append_iff different).mp
    simpa using swapFirst?_of_spec?_eq_some ofLater
  have inner : innerDirectories
      ⟨before ++ specMarker :: between ++ appMarker :: after,
        stem ++ sourceEnding⟩ = after :=
    innerDirectories_of_not_mem freshLater _
  rw [List.append_assoc, List.cons_append] at inner
  rw [innerDirectories_of_not_mem freshEarlier, inner, List.length_append,
    List.length_cons]
  omega

/-- The source that is found is nearer the file than any other of the spec. -/
theorem innerDirectories_lt_of_source?_eq_some
    (found : spec.source? = some source) (ofOther : other.spec? = some spec)
    (different : other ≠ source) :
    source.innerDirectories.length < other.innerDirectories.length := by
  have ofSource := spec?_of_source?_eq_some found
  rcases exists_candidates_of_spec?_eq_some ofOther with
    ⟨directories, stem, rfl, candidate⟩
  rw [source?_eq_find?] at found
  rcases List.find?_eq_some_iff_append.mp found with
    ⟨-, tried, untried, order, failed⟩
  have ordered : (candidates directories stem).Pairwise
      fun left right => left.spec? = some ⟨directories, stem ++ specEnding⟩ →
        right.spec? = some ⟨directories, stem ++ specEnding⟩ →
        left.innerDirectories.length < right.innerDirectories.length :=
    List.pairwise_map.mpr ((pairwise_swaps _ _ directories).imp
      innerDirectories_lt_of_changesLater)
  rw [order] at candidate ordered
  -- Another source is not among those that were tried before.
  have after : other ∈ untried := by
    rcases List.mem_append.mp candidate with before | here
    · have fails := failed other before
      simp [ofOther] at fails
    · exact (List.mem_cons.mp here).resolve_left different
  have behind := (List.pairwise_append.mp ordered).2.1
  exact (List.pairwise_cons.mp behind).1 other after ofSource ofOther

/-- A source has no slashes within its segments if its spec has none. -/
theorem IsClean.of_source (clean : spec.IsClean)
    (found : source.spec? = some spec) : source.IsClean := by
  rcases exists_of_spec?_eq_some found with
    ⟨before, after, stem, -, rfl, rfl, -⟩
  exact clean.change (by decide) (by decide)

end Route

/-! ## Paths -/

variable {source spec : String}

theorem route_normalized (path : String) :
    route (normalized path) = route path := by
  rw [← text_route, (isClean_route path).route_text]

theorem specPath?_eq_some_normalized_iff :
    specPath? source = some (normalized spec) ↔
      (route source).spec? = some (route spec) := by
  constructor
  · intro found
    rw [route_of_specPath?_eq_some found, route_normalized]
  · intro found
    rw [specPath?, found, Option.map_some, text_route]

/-- Whether a path is, of all sources of a spec, the nearest to the file. -/
structure IsNearestSource (spec source : String) : Prop where
  has : specPath? source = some spec
  isNormal : normalized source = source
  nearest : ∀ other, normalized other = other → specPath? other = some spec →
    other ≠ source →
    (route source).innerDirectories.length <
      (route other).innerDirectories.length

theorem IsNearestSource.unique {source' : String}
    (left : IsNearestSource spec source)
    (right : IsNearestSource spec source') : source = source' := by
  by_contra different
  have nearer := left.nearest source' right.isNormal right.has
    (Ne.symm different)
  have further := right.nearest source left.isNormal left.has different
  exact Nat.lt_asymm nearer further

theorem isNearestSource_of_sourcePath?_eq_some
    (found : sourcePath? spec = some source) :
    IsNearestSource (normalized spec) source := by
  rcases Option.map_eq_some_iff.mp found with ⟨origin, has, rfl⟩
  have clean := (isClean_route spec).of_source?_eq_some has
  have isNormal : normalized origin.text = origin.text := by
    rw [← text_route, clean.route_text]
  refine ⟨?_, isNormal, ?_⟩
  · rw [specPath?_eq_some_normalized_iff, clean.route_text]
    exact Route.spec?_of_source?_eq_some has
  · intro other otherNormal ofOther different
    rw [clean.route_text]
    apply Route.innerDirectories_lt_of_source?_eq_some has
      (specPath?_eq_some_normalized_iff.mp ofOther)
    intro same
    rw [← same, text_route, otherNormal] at different
    exact different rfl

theorem sourcePath?_eq_none_iff :
    sourcePath? spec = none ↔
      ∀ source, specPath? source ≠ some (normalized spec) := by
  rw [sourcePath?, Option.map_eq_none_iff, Route.source?_eq_none_iff]
  constructor
  · intro never source found
    exact never _ (specPath?_eq_some_normalized_iff.mp found)
  · intro never source found
    have clean := (isClean_route spec).of_source found
    apply never source.text
    rw [specPath?_eq_some_normalized_iff, clean.route_text, found]

/--
The way back from a spec ends nowhere exactly if no path has that spec, and at
a source exactly if this is the spec's source that is nearest the file.
-/
theorem sourcePath?_iff_isNearestSource (spec : String) :
    (sourcePath? spec = none ↔
      ∀ source, specPath? source ≠ some (normalized spec)) ∧
    ∀ source, sourcePath? spec = some source ↔
      IsNearestSource (normalized spec) source := by
  refine ⟨sourcePath?_eq_none_iff, fun source => ?_⟩
  refine ⟨isNearestSource_of_sourcePath?_eq_some, fun nearest => ?_⟩
  cases found : sourcePath? spec with
  | none => exact absurd nearest.has (sourcePath?_eq_none_iff.mp found source)
  | some other =>
      have otherNearest := isNearestSource_of_sourcePath?_eq_some found
      rw [otherNearest.unique nearest]

/-- A spec of two sources, the second of which is nearer the file. -/
example :
    specPath? "app/spec/user.rb" = some "spec/spec/user_spec.rb" ∧
      sourcePath? "spec/spec/user_spec.rb" = some "spec/app/user.rb" := by
  decide

end SpecAudit.Path

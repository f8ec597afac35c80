import SpecAudit.Proofs.Path.Below

/-!
# The directory that is changed

The spec of a source has `spec` where the source has its first `app`, and the
project root is what stands before that directory.  The directory can also be
looked for in the text of the path: at its start, or else between two slashes.
All of these find the same one.  So a source, its spec, its root and the spec as
it is shown in messages share what stands on either side of it.
-/

namespace SpecAudit.Path

open SpecAudit.Text
  (afterWord? afterWord?_eq_some_iff beforeWord? beforeWord?_eq_some_iff)

/-! ## Looking for a directory in a text -/

/-- A text in which the first occurrence of a word is replaced, if it has one. -/
def replaceFirst? (word new : List Char) : List Char → Option (List Char)
  | [] => none
  | character :: rest =>
      match afterWord? word (character :: rest) with
      | some behind => some (new ++ behind)
      | none => (replaceFirst? word new rest).map (character :: ·)

/-- A path in whose text a directory is changed: the one at its start, or else
the first one between two slashes. -/
def swapInText? (old new path : List Char) : Option (List Char) :=
  match afterWord? (old ++ ['/']) path with
  | some behind => some (new ++ '/' :: behind)
  | none => replaceFirst? ('/' :: (old ++ ['/'])) ('/' :: (new ++ ['/'])) path

/-- The spec path of a source path, by its text alone. -/
def specText? (path : List Char) : Option (List Char) :=
  if (beforeWord? sourceEnding path).isNone ||
      (beforeWord? specEnding path).isSome then none
  else
    (swapInText? appMarker specMarker path).map fun swapped =>
      swapped.take (swapped.length - sourceEnding.length) ++ specEnding

section Text

variable {old new path ending : List Char}

/-- The path that the segments spell once a directory behind the first one is
changed. -/
def Route.swapBehind? (old new : List Char) (route : Route) :
    Option (List Char) :=
  match route.directories with
  | [] => none
  | first :: rest =>
      (swapFirst? old new rest).map fun changed =>
        Route.characters ⟨first :: changed, route.file⟩

/-- The path that the segments spell once a directory is changed. -/
def Route.swap? (old new : List Char) (route : Route) : Option (List Char) :=
  (swapFirst? old new route.directories).map fun changed =>
    Route.characters ⟨changed, route.file⟩

theorem Route.characters_cons (first : List Char) (rest : List (List Char))
    (file : List Char) :
    Route.characters ⟨first :: rest, file⟩ =
      first ++ '/' :: Route.characters ⟨rest, file⟩ := by
  simp [Route.characters]

theorem Route.swap?_cons (first : List Char) (rest : List (List Char))
    (file : List Char) :
    Route.swap? old new ⟨first :: rest, file⟩ =
      if first = old then some (new ++ '/' :: Route.characters ⟨rest, file⟩)
      else Route.swapBehind? old new ⟨first :: rest, file⟩ := by
  rw [Route.swap?, swapFirst?]
  split
  · rw [Option.map_some, Route.characters_cons]
  · rw [Option.map_map]
    rfl

/-- A path starts with a directory exactly if this is its first one. -/
theorem afterWord?_directory (noSlash : '/' ∉ old) (path : List Char) :
    afterWord? (old ++ ['/']) path =
      match (Route.ofCharacters path).directories with
      | [] => none
      | first :: rest =>
          if first = old then
            some (Route.characters ⟨rest, (Route.ofCharacters path).file⟩)
          else none := by
  cases found : afterWord? (old ++ ['/']) path with
  | some behind =>
      rw [afterWord?_eq_some_iff, List.append_assoc,
        List.singleton_append] at found
      rw [found, Route.ofCharacters_append_slash noSlash]
      exact (congrArg some (Route.ofCharacters_characters behind)).symm.trans
        (if_pos rfl).symm
  | none =>
      cases listed : (Route.ofCharacters path).directories with
      | nil => rfl
      | cons first rest =>
          have differs : first ≠ old := by
            rintro rfl
            have starts : path = (first ++ ['/']) ++
                Route.characters ⟨rest, (Route.ofCharacters path).file⟩ := by
              rw [List.append_assoc, List.singleton_append,
                ← Route.characters_cons, ← listed,
                Route.ofCharacters_characters]
            rw [afterWord?_eq_some_iff.mpr starts] at found
            cases found
          exact (if_neg differs).symm

/-- The first directory is the one at the start, and the others are the ones
between two slashes. -/
theorem swapInText?_of_behind (noSlash : '/' ∉ old)
    (behind : replaceFirst? ('/' :: (old ++ ['/'])) ('/' :: (new ++ ['/']))
        path = (Route.ofCharacters path).swapBehind? old new) :
    swapInText? old new path = (Route.ofCharacters path).swap? old new := by
  rw [swapInText?, afterWord?_directory noSlash, behind]
  rcases Route.ofCharacters path with ⟨directories, file⟩
  cases directories with
  | nil => rfl
  | cons first rest =>
      rw [Route.swap?_cons]
      by_cases same : first = old <;> simp [same]

theorem replaceFirst?_slash (old new rest : List Char) :
    replaceFirst? ('/' :: (old ++ ['/'])) ('/' :: (new ++ ['/']))
        ('/' :: rest) =
      (swapInText? old new rest).map ('/' :: ·) := by
  rw [replaceFirst?, afterWord?, if_pos (beq_self_eq_true '/'), swapInText?]
  cases afterWord? (old ++ ['/']) rest with
  | some behind => simp
  | none => rfl

theorem replaceFirst?_other {character : Char} (other : character ≠ '/')
    (word new rest : List Char) :
    replaceFirst? ('/' :: word) new (character :: rest) =
      (replaceFirst? ('/' :: word) new rest).map (character :: ·) := by
  have differs : ('/' == character) = false := by simpa using Ne.symm other
  rw [replaceFirst?, afterWord?, differs]
  rfl

theorem Route.swapBehind?_push_slash (route : Route) :
    (route.push '/').swapBehind? old new =
      (route.swap? old new).map ('/' :: ·) := by
  rw [Route.swap?, Option.map_map]
  rfl

theorem Route.swapBehind?_push_other {character : Char}
    (other : character ≠ '/') (route : Route) :
    (route.push character).swapBehind? old new =
      (route.swapBehind? old new).map (character :: ·) := by
  rcases route with ⟨directories, file⟩
  rw [push, if_neg other]
  cases directories with
  | nil => rfl
  | cons first rest =>
      rw [swapBehind?, swapBehind?, Option.map_map]
      simp only [Function.comp_def, characters_cons, List.cons_append]

/-- Between two slashes the directories behind the first one are found. -/
theorem replaceFirst?_eq (noSlash : '/' ∉ old) (new path : List Char) :
    replaceFirst? ('/' :: (old ++ ['/'])) ('/' :: (new ++ ['/'])) path =
      (Route.ofCharacters path).swapBehind? old new := by
  induction path with
  | nil => rfl
  | cons character rest induction =>
      change _ = ((Route.ofCharacters rest).push character).swapBehind? old new
      by_cases isSlash : character = '/'
      · -- Behind a slash a directory is looked for as at the start.
        rw [isSlash, replaceFirst?_slash, Route.swapBehind?_push_slash,
          swapInText?_of_behind noSlash induction]
      · rw [replaceFirst?_other isSlash, Route.swapBehind?_push_other isSlash,
          induction]

/-- The directory that is found in the text of a path is the first one. -/
theorem swapInText?_eq (noSlash : '/' ∉ old) (new path : List Char) :
    swapInText? old new path = (Route.ofCharacters path).swap? old new :=
  swapInText?_of_behind noSlash (replaceFirst?_eq noSlash new path)

/-- A word without slashes at the end of a path stands behind its slashes. -/
theorem beforeWord?_append_slash (noSlash : '/' ∉ ending)
    (left right : List Char) :
    beforeWord? ending (left ++ '/' :: right) =
      (beforeWord? ending right).map (left ++ '/' :: ·) := by
  cases found : beforeWord? ending right with
  | some before =>
      rw [beforeWord?_eq_some_iff] at found
      rw [Option.map_some, beforeWord?_eq_some_iff, found, List.append_assoc]
      rfl
  | none =>
      rw [Option.map_none, Option.eq_none_iff_forall_ne_some]
      intro before ends
      rw [beforeWord?_eq_some_iff, List.append_eq_append_iff] at ends
      rcases ends with ⟨between, -, split⟩ | ⟨between, -, split⟩
      · cases between with
        | nil => exact noSlash (split.subst List.mem_cons_self)
        | cons slash between =>
            injection split with _ ends
            rw [beforeWord?_eq_some_iff.mpr ends] at found
            cases found
      · rw [split] at noSlash
        simp at noSlash

theorem Route.beforeWord?_characters (noSlash : '/' ∉ ending)
    (directories : List (List Char)) (file : List Char) :
    beforeWord? ending (Route.characters ⟨directories, file⟩) =
      (beforeWord? ending file).map fun stem =>
        Route.characters ⟨directories, stem⟩ := by
  induction directories with
  | nil => exact Option.map_id'.symm
  | cons first rest induction =>
      rw [characters_cons, beforeWord?_append_slash noSlash, induction,
        Option.map_map]
      simp only [Function.comp_def, characters_cons]

theorem Route.characters_append (directories : List (List Char))
    (stem ending : List Char) :
    Route.characters ⟨directories, stem ++ ending⟩ =
      Route.characters ⟨directories, stem⟩ ++ ending :=
  (List.append_assoc ..).symm

end Text

/-! ## Specs by the text of a path -/

/-- The spec of a path is found by the text of the path alone. -/
theorem specText?_eq (path : List Char) :
    specText? path = (Route.ofCharacters path).spec?.map Route.characters := by
  have spelled := Route.ofCharacters_characters path
  rw [specText?, swapInText?_eq (by decide)]
  generalize Route.ofCharacters path = route at spelled ⊢
  rcases route with ⟨directories, file⟩
  rw [← spelled, Route.beforeWord?_characters (by decide),
    Route.beforeWord?_characters (by decide), Route.spec?]
  cases plain : beforeWord? specEnding file with
  | some stem => simp
  | none =>
      cases ends : beforeWord? sourceEnding file with
      | none => rfl
      | some stem =>
          rw [beforeWord?_eq_some_iff] at ends
          rw [Route.swap?]
          cases swapFirst? appMarker specMarker directories with
          | none => rfl
          | some changed => simp [ends, Route.characters_append]

theorem specPath?_eq_specText? (source : String) :
    specPath? source =
      (specText? (normalizedCharacters source)).map String.ofList := by
  rw [specText?_eq, Option.map_map]
  rfl

/-! ## The root of a source -/

variable {source spec : String}

theorem joined_concat (directories : List (List Char)) (file : List Char) :
    joined (directories ++ [file]) = Route.characters ⟨directories, file⟩ := by
  induction directories with
  | nil => rfl
  | cons first rest induction =>
      rw [Route.characters_cons, ← induction, List.cons_append, joined]
      simp

/-- Segments without slashes are those of the path in which they are joined. -/
theorem segments_route_joined {segments : List (List Char)}
    (nonempty : segments ≠ [])
    (clean : ∀ segment ∈ segments, '/' ∉ segment ∧ '\\' ∉ segment) :
    (route (String.ofList (joined segments))).segments = segments := by
  rcases (List.eq_nil_or_concat' segments).resolve_left nonempty with
    ⟨directories, file, rfl⟩
  have clean : Route.IsClean ⟨directories, file⟩ := clean
  rw [joined_concat]
  exact congrArg Route.segments clean.route_text

/-- A path has no marker among its segments if it is joined from others. -/
theorem appMarker_not_mem_joined {segments : List (List Char)}
    (fresh : appMarker ∉ segments)
    (clean : ∀ segment ∈ segments, '/' ∉ segment ∧ '\\' ∉ segment) :
    appMarker ∉ (route (String.ofList (joined segments))).segments := by
  by_cases direct : segments = []
  · subst direct
    decide
  · rwa [segments_route_joined direct clean]

theorem normalized_of_specPath? (found : specPath? source = some spec) :
    normalized spec = spec := by
  rcases Option.map_eq_some_iff.mp found with ⟨conventional, has, rfl⟩
  rw [← text_route, ((isClean_route source).of_spec?_eq_some has).route_text]

/-- What a path spells on either side of a marker. -/
theorem text_marker {before : List (List Char)} (nonempty : before ≠ [])
    (marker : List Char) (after : List (List Char)) (stem ending : List Char) :
    Route.text ⟨before ++ marker :: after, stem ++ ending⟩ =
      String.ofList (joined before) ++ String.ofList ('/' :: (marker ++ ['/'])) ++
        Route.text ⟨after, stem⟩ ++ String.ofList ending := by
  apply String.ext
  simp [Route.text, Route.characters, ← joined_append_slash nonempty]

theorem relativeSpecPath_of_empty (found : projectRoot? source = some "")
    (spec : String) : relativeSpecPath spec source = spec := by
  rw [relativeSpecPath, found]
  rfl

/-- Below its root a spec is shown from the directory on that is changed. -/
theorem relativeSpecPath_marker {before : List (List Char)}
    (fresh : appMarker ∉ before) (named : before ≠ [[]])
    {rest : List (List Char)}
    (read : (route source).segments = before ++ appMarker :: rest)
    (after : List (List Char)) (stem : List Char) :
    relativeSpecPath
        (Route.text ⟨before ++ specMarker :: after, stem ++ specEnding⟩) source =
      "spec/" ++ Route.text ⟨after, stem⟩ ++ "_spec.rb" := by
  let inner : Route := ⟨specMarker :: after, stem ++ specEnding⟩
  refine (relativeSpecPath_of_segments fresh named read inner).trans ?_
  apply String.ext
  simp [inner, Route.text, Route.characters, specMarker, specEnding]

/--
A source, its spec, its root and the spec as it is shown share what stands on
either side of the first `app` directory, which is also the one that is found in
the text of the path.  Below an empty root the spec is shown as a whole.
-/
theorem projectRoot?_of_specPath? (found : specPath? source = some spec) :
    specText? (normalized source).toList = some spec.toList ∧
    ∃ root, projectRoot? source = some root ∧
      appMarker ∉ (route root).segments ∧
      (root ≠ "" → ∃ body,
        normalized source = root ++ "/app/" ++ body ++ ".rb" ∧
          spec = root ++ "/spec/" ++ body ++ "_spec.rb" ∧
          relativeSpecPath spec source = "spec/" ++ body ++ "_spec.rb" ∧
          spec = root ++ "/" ++ relativeSpecPath spec source) ∧
      (root = "" → relativeSpecPath spec source = spec) := by
  have byText : specText? (normalized source).toList = some spec.toList := by
    rcases Option.map_eq_some_iff.mp ((specPath?_eq_specText? source).symm.trans
      found) with ⟨characters, searched, rfl⟩
    rwa [normalized, String.toList_ofList, String.toList_ofList]
  rcases Route.exists_of_spec?_eq_some (route_of_specPath?_eq_some found) with
    ⟨before, after, stem, fresh, isSource, isSpec, -⟩
  have spelled : normalized source =
      Route.text ⟨before ++ appMarker :: after, stem ++ sourceEnding⟩ := by
    rw [← isSource, text_route]
  have conventional : spec =
      Route.text ⟨before ++ specMarker :: after, stem ++ specEnding⟩ := by
    rw [← isSpec, text_route, normalized_of_specPath? found]
  have read : (route source).segments =
      before ++ appMarker :: (after ++ [stem ++ sourceEnding]) := by
    rw [isSource]
    simp [Route.segments]
  have clean : ∀ segment ∈ before, '/' ∉ segment ∧ '\\' ∉ segment := by
    intro segment member
    apply isClean_route source segment
    rw [read]
    exact List.mem_append_left _ member
  have rooted := projectRoot?_of_segments fresh read
  refine ⟨byText, _, rooted, appMarker_not_mem_joined fresh clean, ?_, ?_⟩
  · intro deep
    have several : before ≠ [] := by
      rintro rfl
      exact deep rfl
    have named : before ≠ [[]] := by
      rintro rfl
      exact deep rfl
    have whole : spec =
        String.ofList (joined before) ++ "/spec/" ++ Route.text ⟨after, stem⟩ ++
          "_spec.rb" :=
      conventional.trans (text_marker several ..)
    have shown : relativeSpecPath spec source =
        "spec/" ++ Route.text ⟨after, stem⟩ ++ "_spec.rb" := by
      rw [conventional, relativeSpecPath_marker fresh named read]
    refine ⟨Route.text ⟨after, stem⟩, ?_, whole, shown, ?_⟩
    · exact spelled.trans (text_marker several ..)
    · rw [shown, whole]
      apply String.ext
      simp
  · intro empty
    rw [empty] at rooted
    exact relativeSpecPath_of_empty rooted _

/-- Mixed slashes, an empty segment and names that only look like the marker
stand before the first `app` directory, and further ones behind it. -/
theorem projectRoot?_of_specPath?_shop :
    specPath? "\\srv//app.d\\my app/app/spec/app/user.rb" =
        some "/srv//app.d/my app/spec/spec/app/user_spec.rb" ∧
      projectRoot? "\\srv//app.d\\my app/app/spec/app/user.rb" =
        some "/srv//app.d/my app" ∧
      relativeSpecPath "/srv//app.d/my app/spec/spec/app/user_spec.rb"
          "\\srv//app.d\\my app/app/spec/app/user.rb" =
        "spec/spec/app/user_spec.rb" := by
  have found : specPath? "\\srv//app.d\\my app/app/spec/app/user.rb" =
      some "/srv//app.d/my app/spec/spec/app/user_spec.rb" := by
    decide +kernel
  have rooted : projectRoot? "\\srv//app.d\\my app/app/spec/app/user.rb" =
      some "/srv//app.d/my app" := by
    decide +kernel
  refine ⟨found, rooted, ?_⟩
  rcases projectRoot?_of_specPath? found with ⟨-, root, isRoot, -, deep, -⟩
  cases rooted.symm.trans isRoot
  rcases deep (by decide) with ⟨-, -, -, -, whole⟩
  apply String.append_right_inj ("/srv//app.d/my app" ++ "/") |>.mp
  exact whole.symm.trans (by decide +kernel)

end SpecAudit.Path

import Mathlib.Data.List.Basic
import SpecAudit.Path.Route

/-!
# Paths and what they spell

Reading a path gives segments without slashes, and segments without slashes are
read back from the path that they spell.  So a path and its segments determine
each other, once backslashes are out of the way.
-/

namespace SpecAudit.Path

/-- No segment of a route holds a slash of either kind. -/
def Route.IsClean (route : Route) : Prop :=
  ∀ segment ∈ route.segments, '/' ∉ segment ∧ '\\' ∉ segment

namespace Route

variable {route left right : Route}

theorem segments_push_slash (route : Route) :
    (route.push '/').segments = [] :: route.segments :=
  rfl

theorem segments_push {character : Char} (noSlash : character ≠ '/')
    (route : Route) :
    ∃ first rest, route.segments = first :: rest ∧
      (route.push character).segments = (character :: first) :: rest := by
  rcases route with ⟨directories, file⟩
  cases directories with
  | nil => exact ⟨file, [], rfl, by simp [push, noSlash, segments]⟩
  | cons first rest =>
      exact ⟨first, rest ++ [file], rfl, by simp [push, noSlash, segments]⟩

theorem IsClean.ofCharacters {characters : List Char}
    (noBackslash : '\\' ∉ characters) :
    (Route.ofCharacters characters).IsClean := by
  induction characters with
  | nil => simp [Route.ofCharacters, IsClean, segments]
  | cons character rest induction =>
      have clean := induction fun member =>
        noBackslash (List.mem_cons_of_mem _ member)
      change ((Route.ofCharacters rest).push character).IsClean
      by_cases isSlash : character = '/'
      · rw [isSlash, IsClean, segments_push_slash]
        intro segment member
        rcases List.mem_cons.mp member with rfl | member
        · simp
        · exact clean segment member
      · rcases segments_push isSlash (Route.ofCharacters rest) with
          ⟨first, others, read, pushed⟩
        rw [IsClean, read] at clean
        rw [IsClean, pushed]
        intro segment member
        rcases List.mem_cons.mp member with rfl | member
        · have inFirst := clean first List.mem_cons_self
          have notBackslash : character ≠ '\\' := fun same =>
            noBackslash (same ▸ List.mem_cons_self)
          simp only [List.mem_cons, not_or]
          exact ⟨⟨Ne.symm isSlash, inFirst.1⟩,
            ⟨Ne.symm notBackslash, inFirst.2⟩⟩
        · exact clean segment (List.mem_cons_of_mem _ member)

theorem ofCharacters_append_slash {segment : List Char}
    (noSlash : '/' ∉ segment) (rest : List Char) :
    Route.ofCharacters (segment ++ '/' :: rest) =
      ⟨segment :: (Route.ofCharacters rest).directories,
        (Route.ofCharacters rest).file⟩ := by
  induction segment with
  | nil => rfl
  | cons character segment induction =>
      rw [List.mem_cons, not_or] at noSlash
      change (Route.ofCharacters (segment ++ '/' :: rest)).push character = _
      rw [induction noSlash.2, push, if_neg (Ne.symm noSlash.1)]

theorem ofCharacters_of_noSlash {file : List Char} (noSlash : '/' ∉ file) :
    Route.ofCharacters file = ⟨[], file⟩ := by
  induction file with
  | nil => rfl
  | cons character file induction =>
      rw [List.mem_cons, not_or] at noSlash
      change (Route.ofCharacters file).push character = _
      rw [induction noSlash.2, push, if_neg (Ne.symm noSlash.1)]

/-- Segments without slashes are read back from the path that they spell. -/
theorem IsClean.ofCharacters_characters (clean : route.IsClean) :
    Route.ofCharacters route.characters = route := by
  rcases route with ⟨directories, file⟩
  induction directories with
  | nil =>
      exact ofCharacters_of_noSlash (clean file List.mem_cons_self).1
  | cons first rest induction =>
      have others : Route.IsClean ⟨rest, file⟩ := fun segment member =>
        clean segment (List.mem_cons_of_mem _ member)
      have spelled : characters ⟨first :: rest, file⟩ =
          first ++ '/' :: characters ⟨rest, file⟩ := by
        simp [characters]
      rw [spelled, ofCharacters_append_slash (clean first List.mem_cons_self).1,
        induction others]

theorem IsClean.noBackslash (clean : route.IsClean) :
    '\\' ∉ route.characters := by
  intro member
  rcases List.mem_append.mp member with member | member
  · rcases List.mem_flatMap.mp member with ⟨segment, listed, member⟩
    rcases List.mem_append.mp member with member | member
    · exact (clean segment (List.mem_append_left _ listed)).2 member
    · simp at member
  · exact (clean route.file (List.mem_append_right _ List.mem_cons_self)).2
      member

end Route

theorem noBackslash_normalizedCharacters (path : String) :
    '\\' ∉ normalizedCharacters path := by
  intro member
  rcases List.mem_map.mp member with ⟨character, -, changed⟩
  split at changed
  · simp at changed
  · contradiction

theorem normalizedCharacters_of_noBackslash {path : String}
    (noBackslash : '\\' ∉ path.toList) :
    normalizedCharacters path = path.toList := by
  rw [normalizedCharacters]
  conv_rhs => rw [← List.map_id path.toList]
  apply List.map_congr_left
  intro character member
  have other : character ≠ '\\' := fun same => noBackslash (same ▸ member)
  rw [if_neg other, id]

/-- A path with forward slashes only is its own normal form. -/
theorem normalized_of_noBackslash {path : String}
    (noBackslash : '\\' ∉ path.toList) :
    normalized path = path := by
  rw [normalized, normalizedCharacters_of_noBackslash noBackslash,
    String.ofList_toList]

theorem isClean_route (path : String) : (route path).IsClean :=
  .ofCharacters (noBackslash_normalizedCharacters path)

@[simp]
theorem text_route (path : String) : (route path).text = normalized path := by
  rw [Route.text, route, Route.ofCharacters_characters, normalized]

theorem Route.IsClean.route_text {route : Route} (clean : route.IsClean) :
    Path.route route.text = route := by
  have spelled : route.text.toList = route.characters := String.toList_ofList
  rw [Path.route, normalizedCharacters_of_noBackslash, spelled,
    clean.ofCharacters_characters]
  rw [spelled]
  exact clean.noBackslash

end SpecAudit.Path

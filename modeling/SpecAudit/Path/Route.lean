/-!
# Paths as segments

A path is read as its directory segments and a file name, so that a directory is always looked for
as a whole segment.  The main statement of this module is `Route.ofCharacters_characters`: a path
is determined by its segments.
-/

namespace SpecAudit.Path

/-- A path as the directory segments before its last slash and the file name after it. -/
structure Route where
  /-- The segments that are followed by a slash. -/
  directories : List (List Char)
  /-- What follows the last slash. -/
  file : List Char
  deriving DecidableEq

namespace Route

/-- Put a character in front of a path: a slash opens an empty first segment. -/
def push (character : Char) (route : Route) : Route :=
  if character = '/' then ⟨[] :: route.directories, route.file⟩
  else
    match route.directories with
    | [] => ⟨[], character :: route.file⟩
    | first :: rest => ⟨(character :: first) :: rest, route.file⟩

/-- The segments of a path. -/
def ofCharacters (characters : List Char) : Route :=
  characters.foldr push ⟨[], []⟩

/-- The path that the segments spell. -/
def characters (route : Route) : List Char :=
  route.directories.flatMap (· ++ ['/']) ++ route.file

/-- The path that the segments spell, as a string. -/
def text (route : Route) : String :=
  String.ofList route.characters

/-- All segments of a path, the file name last. -/
def segments (route : Route) : List (List Char) :=
  route.directories ++ [route.file]

/-- The path behind one more character spells that character and the rest. -/
theorem characters_push (character : Char) (route : Route) :
    (route.push character).characters = character :: route.characters := by
  unfold push characters
  split
  · simp_all
  · split <;> simp_all

/-- Reading a path into segments and writing it back changes nothing. -/
@[simp]
theorem ofCharacters_characters (path : List Char) : (ofCharacters path).characters = path := by
  induction path with
  | nil => rfl
  | cons character rest induction =>
    simpa [ofCharacters, characters_push] using induction

end Route

/-- A path with forward slashes only. -/
def normalizedCharacters (path : String) : List Char :=
  path.toList.map fun character => if character = '\\' then '/' else character

/-- A path with forward slashes only, as a string. -/
def normalized (path : String) : String :=
  String.ofList (normalizedCharacters path)

/-- The segments of a path, whichever slashes it is written with. -/
def route (path : String) : Route :=
  .ofCharacters (normalizedCharacters path)

end SpecAudit.Path

import SpecAudit.Path.Route
import SpecAudit.Text.Search

/-!
# Where the spec of a source file stands

A source file below an `app` directory has its spec below the `spec` directory beside it: of
`shop/app/models/user.rb` it is `shop/spec/models/user_spec.rb`.  Where a path has several such
directories the first one counts, and a spec's source is the one nearest the file that has it.
-/

namespace SpecAudit.Path

open SpecAudit.Text (afterWord? beforeWord?)

/-- The directory that holds the sources. -/
def appMarker : List Char := ['a', 'p', 'p']

/-- The directory that holds the specs. -/
def specMarker : List Char := ['s', 'p', 'e', 'c']

/-- How a source file's name ends. -/
def sourceEnding : List Char := ['.', 'r', 'b']

/-- How a spec file's name ends. -/
def specEnding : List Char := ['_', 's', 'p', 'e', 'c', '.', 'r', 'b']

/-- Change the first segment that is `old` into `new`, if there is one. -/
def swapFirst? (old new : List Char) : List (List Char) → Option (List (List Char))
  | [] => none
  | segment :: rest =>
    if segment = old then some (new :: rest)
    else (swapFirst? old new rest).map (segment :: ·)

/-- Every way to change one segment that is `old` into `new`, the last segment first. -/
def swaps (old new : List Char) : List (List Char) → List (List (List Char))
  | [] => []
  | segment :: rest =>
    (swaps old new rest).map (segment :: ·) ++ if segment = old then [new :: rest] else []

/-- The spec of a source: its first `app` directory is `spec`, and its name ends in `_spec`. -/
def Route.spec? (source : Route) : Option Route :=
  if (beforeWord? specEnding source.file).isSome then none
  else do
    let stem ← beforeWord? sourceEnding source.file
    let directories ← swapFirst? appMarker specMarker source.directories
    return ⟨directories, stem ++ specEnding⟩

/-- The source of a spec: the first candidate, nearest the file, that has this spec. -/
def Route.source? (spec : Route) : Option Route := do
  let stem ← beforeWord? specEnding spec.file
  let candidates := (swaps specMarker appMarker spec.directories).map fun directories =>
    (⟨directories, stem ++ sourceEnding⟩ : Route)
  candidates.find? fun candidate => candidate.spec? = some spec

/-- The conventional spec path of a source path, if it has one. -/
def specPath? (source : String) : Option String :=
  (route source).spec?.map Route.text

/-- The source path that a spec path belongs to, if there is one. -/
def sourcePath? (spec : String) : Option String :=
  (route spec).source?.map Route.text

/-- Segments with slashes between them. -/
def joined : List (List Char) → List Char
  | [] => []
  | [segment] => segment
  | segment :: rest => segment ++ '/' :: joined rest

/-- The directory that holds the first `app` segment; empty for a relative path. -/
def projectRoot? (source : String) : Option String :=
  let segments := (route source).segments
  if segments.contains appMarker then
    some (String.ofList (joined (segments.takeWhile (· ≠ appMarker))))
  else none

/-- A spec path as seen from the project root of its source. -/
def relativeSpecPath (spec source : String) : String :=
  match projectRoot? source with
  | none => spec
  | some root =>
    if root.isEmpty then spec
    else ((afterWord? (root.toList ++ ['/']) spec.toList).map String.ofList).getD spec

/-- Whether one list of segments starts with another. -/
def startsWithSegments : List (List Char) → List (List Char) → Bool
  | [], _ => true
  | _ :: _, [] => false
  | expected :: rest, segment :: segments =>
    expected == segment && startsWithSegments rest segments

/-- Whether a list of segments holds another as a contiguous part. -/
def holdsSegments (part : List (List Char)) : List (List Char) → Bool
  | [] => startsWithSegments part []
  | segment :: rest =>
    startsWithSegments part (segment :: rest) || holdsSegments part rest

/-- A text without the slashes on either side. -/
def withoutOuterSlashes (characters : List Char) : List Char :=
  ((characters.dropWhile (· == '/')).reverse.dropWhile (· == '/')).reverse

/-- Whether a path has an `app` directory directly followed by the given directories. -/
def isUnder (directory path : String) : Bool :=
  let wanted := Route.ofCharacters (withoutOuterSlashes directory.toList)
  holdsSegments (appMarker :: wanted.segments) (route path).directories

/-- Whether a path lies in one of the covered directories below an `app` directory. -/
def isCovered (covered : List String) (path : String) : Bool :=
  covered.any (isUnder · path)

/-- The directory of service objects. -/
def servicesDirectory : String := "services"

/-- Whether a path lies in the directory of service objects. -/
def isService (path : String) : Bool :=
  isUnder servicesDirectory path

/-- Whether a path is a spec's, by its name or by a directory. -/
def isSpecFile (path : String) : Bool :=
  let route := route path
  (beforeWord? specEnding route.file).isSome || route.directories.contains specMarker

/-- Whether a source path is one whose methods need specs. -/
def shouldCheck (covered : List String) (path : String) : Bool :=
  !isSpecFile path && isCovered covered path

end SpecAudit.Path

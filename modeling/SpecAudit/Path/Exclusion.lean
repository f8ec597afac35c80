import SpecAudit.Json.Basic
import SpecAudit.Path.Convention
import SpecAudit.Path.Glob

/-!
# Which paths are left out

An exclusion pattern leaves out a path that has the pattern as a component, that has a component
matching it as a shell pattern, or that lies below the directory the pattern names.  Patterns come
from a configuration that may hold any value, so looking for a match can fail.
-/

namespace SpecAudit.Path

open SpecAudit.Text (afterWord?)

/-- Directories that are never searched. -/
def neverSearched : List String :=
  [".git", ".bundle", ".svn", ".hg", "node_modules", "vendor", "tmp", "log", "coverage", "public"]

/-- The components of a path: its segments without empty ones and single dots, behind the root's
slashes if the path starts with any. -/
def components (path : List Char) : List (List Char) :=
  let named := (Route.ofCharacters path).segments.filter fun segment =>
    segment != [] && segment != ['.']
  match path with
  | '/' :: '/' :: '/' :: _ => ['/'] :: named
  | '/' :: '/' :: _ => ['/', '/'] :: named
  | '/' :: _ => ['/'] :: named
  | _ => named

/-- Whether a path lies below the directory that a pattern with a slash names. -/
def liesBelow (pattern path : List Char) : Bool :=
  pattern.contains '/'
    && (afterWord? ((pattern.reverse.dropWhile (· == '/')).reverse ++ ['/']) path).isSome

/-- Whether a pattern leaves out a path. -/
def isExcludedBy (pattern path : String) : Bool :=
  let parts := components path.toList
  let pattern := pattern.toList
  parts.contains pattern
    || (pattern.contains '*' && parts.any (Glob.isMatch pattern))
    || liesBelow pattern path.toList

/-- Why a pattern cannot be looked for in a path. -/
inductive PatternFault where
  /-- The pattern is not a text that can be searched or compared. -/
  | notSearchable
  /-- The pattern holds a slash but is not a text whose end could be trimmed. -/
  | notTrimmable
  deriving DecidableEq

/-- Looking for a pattern that is a collection: it fails once a star or slash is among it. -/
def collectionExcludes (members : List String) (path : String) : Except PatternFault Bool :=
  if members.contains "*" && !(components path.toList).isEmpty then .error .notSearchable
  else if members.contains "/" then .error .notTrimmable
  else .ok false

/-- Whether a configured pattern leaves out a path. -/
def excludes (pattern : Json) (path : String) : Except PatternFault Bool :=
  match pattern with
  | .str pattern => .ok (isExcludedBy pattern path)
  | .arr items => collectionExcludes (items.filterMap Json.text?) path
  | .obj fields => collectionExcludes (Fields.keys fields) path
  | _ => .error .notSearchable

/-- Whether one of several configured patterns leaves out a path; they are tried in order. -/
def anyExcludes (patterns : List Json) (path : String) : Except PatternFault Bool :=
  match patterns with
  | [] => .ok false
  | pattern :: rest => do
    if ← excludes pattern path then return true else anyExcludes rest path

/-- Whether one of several configured patterns leaves out a directory, by its path or by being
its name. -/
def anyExcludesDirectory (patterns : List Json) (name path : String) :
    Except PatternFault Bool :=
  match patterns with
  | [] => .ok false
  | pattern :: rest => do
    if ← excludes pattern path then return true
    else if pattern.text? == some name then return true
    else anyExcludesDirectory rest name path

/-- Whether a directory is not searched. -/
def skipsDirectory (patterns : List Json) (name path : String) : Except PatternFault Bool :=
  if neverSearched.contains name then .ok true
  else anyExcludesDirectory patterns name path

end SpecAudit.Path

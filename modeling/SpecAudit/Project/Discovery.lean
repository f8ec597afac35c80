import SpecAudit.Path.Exclusion
import SpecAudit.Project.Lookup

/-!
# Finding files

Finds the files below a directory whose names have one of several endings.  Directories that are
never searched or that a pattern leaves out are not entered, and neither are links to directories.
A directory that may not be listed has no files in it.
-/

namespace SpecAudit.Project

open SpecAudit.Path (PatternFault)

/-- What is looked for: files of a project with one of the endings that no pattern leaves out. -/
structure Search where
  project : Project
  endings : List String
  exclusions : List Json

namespace Search

/-- Whether an entry of a directory is a directory, or a link to one. -/
def leadsToDirectory (search : Search) (place : Place) : Entry → Bool
  | .directory _ | .closedDirectory => true
  | .link target =>
    let start := if isAbsolute target then [] else place
    (entryFrom? search.project.disk start (namesOf target)).any Entry.isDirectory
  | .file _ | .closedFile => false

/-- The path of a name in a directory that is shown by its path. -/
def pathIn (directory name : String) : String :=
  if directory == "." then name else directory ++ "/" ++ name

/-- Whether a name has one of the endings that are looked for. -/
def hasEnding (search : Search) (name : String) : Bool :=
  search.endings.any fun ending => ending.toList.isSuffixOf name.toList

/-- The names of the directories in a directory that are entered. -/
def entered (search : Search) (shown place : Place) :
    List (String × Entry) → Except PatternFault (List String)
  | [] => .ok []
  | (name, entry) :: rest => do
    let directory := search.project.wayTo shown
    let skipped ←
      if search.leadsToDirectory place entry then
        Path.skipsDirectory search.exclusions name (pathIn directory name)
      else pure true
    let names ← search.entered shown place rest
    return if skipped then names else name :: names

/-- The paths of the files directly in a directory. -/
def ownFiles (search : Search) (shown place : Place) :
    List (String × Entry) → Except PatternFault (List String)
  | [] => .ok []
  | (name, entry) :: rest => do
    let path := search.project.wayTo (shown ++ [name])
    let wanted := !search.leadsToDirectory place entry && search.hasEnding name
    let left ←
      if wanted then Path.anyExcludes search.exclusions path else pure true
    let paths ← search.ownFiles shown place rest
    return if left then paths else path :: paths

mutual

/-- The paths of the files in an entry and below it.  The entry is shown at one place and stands
at another, which differ where the search began at a link. -/
def filesBelow (search : Search) (shown place : Place) :
    Entry → Except PatternFault (List String)
  | .directory entries => do
    let names ← search.entered shown place entries
    let own ← search.ownFiles shown place entries
    let nested ← search.filesOf names shown place entries
    return own ++ nested
  | .file _ | .link _ | .closedFile | .closedDirectory => .ok []

/-- The paths of the files in and below the entries that have one of the names. -/
def filesOf (search : Search) (names : List String) (shown place : Place) :
    List (String × Entry) → Except PatternFault (List String)
  | [] => .ok []
  | (name, entry) :: rest => do
    let files ←
      if names.contains name then
        search.filesBelow (shown ++ [name]) (place ++ [name]) entry
      else pure []
    let others ← search.filesOf names shown place rest
    return files ++ others

end

/-- The paths of the files in and below the directory that names lead to, in order.  Names that lead
to no directory have none. -/
def filesIn (search : Search) (names : List String) : Except PatternFault (List String) := do
  match reach search.project.disk names with
  | .ok (.present place) =>
    match search.project.disk.at? place with
    | some entry =>
      let files ← search.filesBelow (lexically [] names) place entry
      return files.mergeSort fun left right => !(right < left)
    | none => return []
  | _ => return []

end Search

/-- Why files cannot be found. -/
inductive SearchFault where
  /-- The path cannot be looked up. -/
  | path (fault : DiskFault)
  /-- A pattern cannot be looked for in a path. -/
  | pattern (fault : PatternFault)

/-- The paths of the files that a path leads to: of the file itself whatever its name, or of the
files below the directory that have one of the endings and are not left out, in order. -/
def findFiles (project : Project) (path : String) (endings : List String)
    (exclusions : List Json) : Except SearchFault (List String) := do
  let names := project.names path
  if ← (project.hasFile path).mapError .path then return [project.wayTo (lexically [] names)]
  else ((Search.mk project endings exclusions).filesIn names).mapError .pattern

/-- How the names of source files end. -/
def sourceEndings : List String := [".rb"]

end SpecAudit.Project

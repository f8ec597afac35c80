import SpecAudit.Path.Route
import SpecAudit.Project.Disk.Links
import SpecAudit.Text.Lines
import SpecAudit.Text.Utf8

/-!
# Paths of a project

A project is a directory on a disk.  Relative paths are read from that directory, and paths below
it are shown as seen from it.
-/

namespace SpecAudit

open SpecAudit.Project

/-- A directory on a disk. -/
structure Project where
  /-- The disk, from the top. -/
  disk : Entry
  /-- The place of the directory. -/
  root : Place

namespace Project

/-- The names from the top along a path. -/
def names (project : Project) (path : String) : List String :=
  if isAbsolute path then namesOf path else project.root ++ namesOf path

/-- What a path leads to, if it leads to an entry. -/
def entryAt? (project : Project) (path : String) : Option Entry :=
  entry? project.disk (project.names path)

/-- Whether a path leads to a file, if the path can be looked up. -/
def hasFile (project : Project) (path : String) : Except DiskFault Bool :=
  (lookUp project.disk (project.names path)).map fun found => found.any Entry.isFile

/-- The text that bytes hold, with every line ending as a line feed. -/
def textOf (content : ByteArray) : String :=
  String.ofList (Text.unifyNewlines (Text.readBytes content).toList)

/-- The text of the file that a path leads to. -/
def text? (project : Project) (path : String) : Option String :=
  match project.entryAt? path with
  | some (.file content) => some (textOf content)
  | _ => none

/-- The place that a path leads to, with links resolved, unless they go round in circles. -/
def resolvePath (project : Project) (path : String) : Except DiskFault Place :=
  resolve project.disk (project.names path)

/-- The path of a place as seen from the project, and from the top outside of it. -/
def shownPath (project : Project) (place : Place) : String :=
  if project.root.isPrefixOf place then
    match place.drop project.root.length with
    | [] => "."
    | names => Path.normalized (String.intercalate "/" names)
  else Path.normalized (pathOf place)

/-- The names that two places have in common at their start, dropped from both. -/
def apart : Place → Place → Place × Place
  | left :: lefts, right :: rights =>
    if left == right then apart lefts rights else (left :: lefts, right :: rights)
  | lefts, rights => (lefts, rights)

/-- The way from the project to a place, two dots for each directory that has to be left. -/
def wayTo (project : Project) (place : Place) : String :=
  let (left, entered) := apart project.root place
  match left.map (fun _ => "..") ++ entered with
  | [] => "."
  | names => Path.normalized (String.intercalate "/" names)

end Project

end SpecAudit

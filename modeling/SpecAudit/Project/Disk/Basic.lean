import SpecAudit.Path.Route

/-!
# Files, directories and links

A disk is a tree of directories that hold files, directories and links.  A place is the way to an
entry from the top, without links on it.
-/

namespace SpecAudit.Project

/-- What stands under a name in a directory. -/
inductive Entry where
  /-- A file and its bytes. -/
  | file (content : ByteArray)
  /-- A directory and what it holds. -/
  | directory (entries : List (String × Entry))
  /-- A link to a path. -/
  | link (target : String)
  /-- A file that may be neither read nor written. -/
  | closedFile
  /-- A directory that may be neither listed nor entered. -/
  | closedDirectory
  deriving Inhabited

/-- The names of the directories from the top to an entry, and its own. -/
abbrev Place := List String

/-- Why an entry cannot be reached or changed. -/
inductive DiskFault where
  /-- There is nothing of that name. -/
  | notFound
  /-- What should hold the entry is no directory. -/
  | notDirectory
  /-- The entry is a directory. -/
  | isDirectory
  /-- There is something of that name. -/
  | alreadyThere
  /-- There are too many links on the way. -/
  | tooManyLinks
  /-- A name or the path is too long. -/
  | nameTooLong
  /-- An entry on the way may not be opened. -/
  | notPermitted
  deriving DecidableEq

/-- Whether a fault only says that there is no entry, so that to look for the entry is no error. -/
def DiskFault.saysAbsent : DiskFault → Bool
  | notFound | notDirectory | tooManyLinks => true
  | isDirectory | alreadyThere | nameTooLong | notPermitted => false

/-- The most bytes that a name may have. -/
def maxNameBytes : Nat := 255

/-- The most bytes that a path may have. -/
def maxPathBytes : Nat := 4095

/-- The bytes of a name. -/
def nameBytes (name : String) : Nat :=
  name.toList.foldl (fun bytes character => bytes + character.utf8Size) 0

/-- The bytes of the path that names from the top spell, with a slash before each name. -/
def pathBytes (names : List String) : Nat :=
  names.foldl (fun bytes name => bytes + nameBytes name + 1) 0

/-- Whether a path starts at the top. -/
def isAbsolute (path : String) : Bool :=
  path.toList.head? == some '/'

/-- The names on a path, without empty ones and single dots. -/
def namesOf (path : String) : List String :=
  (((Path.Route.ofCharacters path.toList).segments.filter fun segment =>
    segment != [] && segment != ['.'])).map String.ofList

/-- The path of a place. -/
def pathOf (place : Place) : String :=
  "/" ++ String.intercalate "/" place

/-- The place that names lead to from a place, where two dots drop the name before them. -/
def lexically (place : Place) (names : List String) : Place :=
  names.foldl (fun place name => if name == ".." then place.dropLast else place ++ [name]) place

namespace Entry

/-- The entry at a place below this one, links not followed. -/
def at? : Entry → Place → Option Entry
  | entry, [] => some entry
  | directory entries, name :: rest =>
    match entries.lookup name with
    | some inner => inner.at? rest
    | none => none
  | _, _ :: _ => none

/-- Whether the entry is a directory. -/
def isDirectory : Entry → Bool
  | directory _ | closedDirectory => true
  | _ => false

/-- Whether the entry is a file. -/
def isFile : Entry → Bool
  | file _ | closedFile => true
  | _ => false

/-- The entries of a directory with one of them changed, added or, for `none`, removed. -/
def replace (name : String) (new : Option Entry) :
    List (String × Entry) → List (String × Entry)
  | [] => new.toList.map (name, ·)
  | (other, entry) :: rest =>
    if other == name then new.toList.map (name, ·) ++ rest
    else (other, entry) :: replace name new rest

/-- The disk with the entry at a place changed, added or, for `none`, removed.  Nothing changes
unless the place lies in a directory. -/
def change (new : Option Entry) : Place → Entry → Entry
  | [], entry => new.getD entry
  | [name], directory entries => directory (replace name new entries)
  | name :: rest, directory entries =>
    match entries.lookup name with
    | some inner => directory (replace name (some (inner.change new rest)) entries)
    | none => directory entries
  | _ :: _, entry => entry

end Entry

end SpecAudit.Project

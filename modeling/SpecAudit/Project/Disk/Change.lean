import SpecAudit.Project.Disk.Links

/-!
# Changing entries

Making directories, writing files, making links, and removing what is no directory.  Nothing is
put under a name that is too long, and nothing is changed in a directory that may not be entered.
-/

namespace SpecAudit.Project

/-- Whether what stands at a place is a directory that may not be entered. -/
def isClosedAt (top : Entry) (place : Place) : Bool :=
  match top.at? place with
  | some .closedDirectory => true
  | _ => false

/-- Make the directories on the way along names from a place, the last name included. -/
def makeDirectoriesFrom (top : Entry) : Place → List String → Except DiskFault (Entry × Place)
  | place, [] => .ok (top, place)
  | place, name :: rest =>
    if isClosedAt top place then .error .notPermitted
    else if name == ".." then makeDirectoriesFrom top place.dropLast rest
    else
      let next := place ++ [name]
      match top.at? next with
      | none =>
        if maxNameBytes < nameBytes name then .error .nameTooLong
        else makeDirectoriesFrom (top.change (some (.directory [])) next) next rest
      | some (.directory _) | some .closedDirectory => makeDirectoriesFrom top next rest
      | some (.file _) | some .closedFile =>
        .error (if rest.isEmpty then .alreadyThere else .notDirectory)
      | some (.link _) =>
        match follow top maxLinks place [name] with
        | .ok (.present target) =>
          if (top.at? target).any Entry.isDirectory then makeDirectoriesFrom top target rest
          else .error (if rest.isEmpty then .alreadyThere else .notDirectory)
        | .ok (.free _) => .error .alreadyThere
        | .error .notFound => .error .alreadyThere
        | .error fault =>
          .error (if rest.isEmpty && fault.saysAbsent then .alreadyThere else fault)

/-- Make the directories on the way along names from the top. -/
def makeDirectories (top : Entry) (names : List String) : Except DiskFault Entry :=
  (makeDirectoriesFrom top [] names).map Prod.fst

/-- Write a file, through links, making the directories that should hold it. -/
def writeFile (content : ByteArray) (names : List String) (top : Entry) :
    Except DiskFault Entry := do
  let top ← makeDirectories top names.dropLast
  match ← reach top names with
  | .free place => return top.change (some (.file content)) place
  | .present place =>
    match top.at? place with
    | some (.directory _) | some .closedDirectory => throw .isDirectory
    | some .closedFile => throw .notPermitted
    | _ => return top.change (some (.file content)) place

/-- The place of the last name in a directory; a name that leads back up is a directory's. -/
def placeIn (parent : Place) (names : List String) : Place :=
  match names.getLast? with
  | none => parent
  | some name => if name == ".." then parent.dropLast else parent ++ [name]

/-- Check that a directory can be changed under the last of several names. -/
def checkPlace (top : Entry) (parent : Place) (names : List String) : Except DiskFault Unit :=
  if maxPathBytes < pathBytes names || maxNameBytes < nameBytes (names.getLastD "") then
    .error .nameTooLong
  else if isClosedAt top parent then .error .notPermitted
  else .ok ()

/-- A name under which a file is written before it is put in its place. -/
def temporaryName : String := "tmp00000000.tmp"

/-- Put a file in the place of whatever stands there, a directory excepted, making the directories
that should hold it.  The file is written under another name in the directory first. -/
def replaceFile (content : ByteArray) (names : List String) (top : Entry) :
    Except DiskFault Entry := do
  let (top, parent) ← makeDirectoriesFrom top [] names.dropLast
  checkPlace top parent (names.dropLast ++ [temporaryName])
  checkPlace top parent names
  let place := placeIn parent names
  if (top.at? place).any Entry.isDirectory then throw .isDirectory
  else return top.change (some (.file content)) place

/-- Make a link, and the directories that should hold it. -/
def makeLink (target : String) (names : List String) (top : Entry) : Except DiskFault Entry := do
  let (top, parent) ← makeDirectoriesFrom top [] names.dropLast
  checkPlace top parent names
  let place := placeIn parent names
  if (top.at? place).isSome then throw .alreadyThere
  else return top.change (some (.link target)) place

/-- Remove a file or a link. -/
def removeFile (names : List String) (top : Entry) : Except DiskFault Entry := do
  match ← reach top names.dropLast with
  | .free _ => throw .notFound
  | .present parent =>
    if !(top.at? parent).any Entry.isDirectory then throw .notDirectory
    checkPlace top parent names
    let place := placeIn parent names
    match top.at? place with
    | none => throw .notFound
    | some (.directory _) | some .closedDirectory => throw .isDirectory
    | some _ => return top.change none place

end SpecAudit.Project

import SpecAudit.Command.Run

/-!
# The program

Reads the files of the project, runs the command line on them, writes what the run comes to, and
saves the configuration if the run changed it.  No grammar is built in, so that sources are skipped
and specs are read by their lines.
-/

namespace SpecAudit.Main

/-- The variable that names the project directory, which is otherwise the current one. -/
def rootVariable : String := "SPECPARITY_ROOT"

/-- The variable that turns colours off. -/
def noColorVariable : String := "NO_COLOR"

/-- What an action gives, unless it fails. -/
def attempt {α : Type} (action : IO α) : IO (Option α) :=
  try return some (← action) catch _ => return none

/-- A target that no path leads to. -/
def nowhere : String := "\x00"

/-- Whether the bytes of a file are ever looked at. -/
def isRead (name : String) : Bool :=
  Command.configFile.contains name
    || SpecAudit.Project.sourceEndings.any fun ending => ending.toList.isSuffixOf name.toList

/-- What a directory holds, read from the disk. -/
partial def readEntries (entries : Array IO.FS.DirEntry) :
    IO (List (String × SpecAudit.Project.Entry)) := do
  let mut found := []
  for entry in entries.toList.reverse do
    let name := entry.fileName
    let kind := (← entry.path.symlinkMetadata).type
    let read ← match kind with
      | .dir =>
        let inner ← attempt do readEntries (← entry.path.readDir)
        pure ((inner.map SpecAudit.Project.Entry.directory).getD .closedDirectory)
      | .symlink => do
        let target ←
          if ← entry.path.pathExists then pure (← IO.FS.realPath entry.path).toString
          else pure nowhere
        pure (.link target)
      | _ =>
        if isRead name then
          let content ← attempt (IO.FS.readBinFile entry.path)
          pure ((content.map .file).getD .closedFile)
        else pure (.file .empty)
    found := (name, read) :: found
  return found

end SpecAudit.Main

open SpecAudit SpecAudit.Main

/-- Run the program. -/
def main (arguments : List String) : IO UInt32 := do
  let current ← IO.currentDir
  let root ← IO.FS.realPath ((← IO.getEnv rootVariable).getD current.toString)
  let place := SpecAudit.Project.namesOf root.toString
  let entries ← readEntries (← root.readDir)
  let disk := match SpecAudit.Project.makeDirectories (.directory []) place with
    | .ok top => top.change (some (.directory entries)) place
    | .error _ => .directory []
  let output ← IO.getStdout
  let errors ← IO.getStderr
  let style := Report.Style.of (← output.isTty) (← IO.getEnv noColorVariable).isSome
  let outcome := Command.run ⟨⟨disk, place⟩, .missing⟩ style arguments
  match Command.configContent? outcome.project with
  | some content =>
    if Command.configContent? ⟨disk, place⟩ != some content then
      let path := Command.configFile.foldl (fun path name => path / name) root
      IO.FS.createDirAll (path.parent.getD root)
      IO.FS.writeBinFile path content
  | none => pure ()
  output.putStr outcome.output
  errors.putStr outcome.errors
  match outcome.ending with
  | .exit status => return status.toUInt32
  | .fault _ => return 1

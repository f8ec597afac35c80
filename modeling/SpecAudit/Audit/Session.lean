import SpecAudit.Audit.Index
import SpecAudit.Project.Disk.Change

/-!
# Sessions

In a session files are written and removed and the grammar is replaced, and in between one index is
asked for spec documents.  A change that fails leaves the workspace as it was.
-/

namespace SpecAudit.Audit

open SpecAudit.Spec (Forest)
open SpecAudit.Project (DiskFault Entry)

/-- What can happen in a session. -/
inductive Event where
  /-- A file is written, through links, with the directories that should hold it. -/
  | write (path : String) (content : ByteArray)
  /-- A file or a link is removed. -/
  | remove (path : String)
  /-- Another grammar takes the place of the one that was there. -/
  | replaceGrammar (grammar : Grammar)
  /-- It is asked whether a path leads to a document. -/
  | find (path : String)
  /-- The blocks of the document that a path leads to are asked for. -/
  | read (path : String)

namespace Workspace

/-- The workspace with a changed disk, unless the change failed. -/
def withDisk (workspace : Workspace) (changed : Except DiskFault Entry) : Workspace :=
  match changed with
  | .ok disk => { workspace with project := { workspace.project with disk := disk } }
  | .error _ => workspace

/-- The workspace after an event; asking changes nothing in it. -/
def after (workspace : Workspace) (event : Event) : Workspace :=
  let project := workspace.project
  match event with
  | .write path content =>
    workspace.withDisk (Project.writeFile content (project.names path) project.disk)
  | .remove path => workspace.withDisk (Project.removeFile (project.names path) project.disk)
  | .replaceGrammar grammar => { workspace with grammar := grammar }
  | .find _ => workspace
  | .read _ => workspace

/-- The workspace after events, one after the other. -/
def afterAll (workspace : Workspace) (events : List Event) : Workspace :=
  events.foldl after workspace

end Workspace

/-- A workspace that changes, and the index that is asked for its spec documents. -/
structure Session where
  workspace : Workspace
  index : SpecIndex

namespace Session

/-- A session in which the index has taken in nothing. -/
def start (workspace : Workspace) (structureName : String) : Session :=
  ⟨workspace, .empty structureName⟩

/-- Whether a path leads to a document, if it can be looked up. -/
def finds (session : Session) (path : String) : Except DiskFault Bool :=
  session.workspace.project.hasFile path

/-- What the index gives for a path, and the session after it was asked. -/
def read (session : Session) (path : String) : Except Fault (Option Forest) × Session :=
  let (given, index) := (SpecIndex.forest session.workspace path).run session.index
  (given, { session with index := index })

/-- The session after an event. -/
def step (session : Session) (event : Event) : Session :=
  match event with
  | .read path => (session.read path).2
  | event => { session with workspace := session.workspace.after event }

/-- The session after events, one after the other. -/
def run (session : Session) (events : List Event) : Session :=
  events.foldl step session

end Session

end SpecAudit.Audit

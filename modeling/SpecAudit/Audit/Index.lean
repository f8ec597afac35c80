import SpecAudit.Audit.Step

/-!
# The index of spec documents

Spec documents are read when they are first asked for, and their blocks are kept under the path
they were asked for with.  Whether a document exists is looked up each time.
-/

namespace SpecAudit.Audit

open SpecAudit.Spec (Forest Structure forestOf)

namespace SpecIndex

/-- An index that has taken in nothing. -/
def empty (structureName : String) : SpecIndex := ⟨structureName, []⟩

/-- The blocks of a spec document as it stands, `none` if it is unreadable. -/
def readForest (workspace : Workspace) (structureName path : String) :
    Except Fault (Option Forest) :=
  match workspace.project.text? path with
  | none => .ok none
  | some text =>
    match Structure.ofName? structureName with
    | none => .error (.unknownStructure structureName)
    | some way => .ok (some (forestOf workspace.grammar way text))

/-- The blocks of a spec document: those that are kept, or those that it has now. -/
def forest (workspace : Workspace) (path : String) : Step (Option Forest) := do
  let index ← get
  match index.forests.lookup path with
  | some kept => return kept
  | none =>
    let forest ← lift (readForest workspace index.structureName path)
    modify fun index => { index with forests := (path, forest) :: index.forests }
    return forest

end SpecIndex

end SpecAudit.Audit

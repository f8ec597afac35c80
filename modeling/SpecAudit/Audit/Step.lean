import SpecAudit.Config.Settings
import SpecAudit.Grammar
import SpecAudit.Method.Site
import SpecAudit.Project.Lookup
import SpecAudit.Text.Quoted

/-!
# Steps of an audit

An audit goes over the methods of files step by step.  A step may fail, and it carries along the
spec documents that have been read so far, which a failed step keeps as well.
-/

namespace SpecAudit.Audit

open SpecAudit.Project (DiskFault)
open SpecAudit.Spec (Forest)

/-- What an audit works on: a project and the grammar of its files. -/
structure Workspace where
  project : Project
  grammar : Grammar

/-- Why an audit of a file cannot go on. -/
inductive Fault where
  /-- The file cannot be parsed. -/
  | grammar (fault : GrammarFault)
  /-- An entry of the settings cannot be used. -/
  | settings (fault : Config.SettingsFault)
  /-- There is no way to find blocks of that name. -/
  | unknownStructure (name : String)
  /-- A path cannot be resolved or looked up. -/
  | path (fault : DiskFault)

/-- The text that reports why an audit cannot go on. -/
def Fault.message : Fault → String
  | grammar fault => fault.message
  | settings _ => "a configured entry cannot be used"
  | unknownStructure name =>
    let shown := Text.quoted name
    s!"{shown} is not a valid SpecStructure"
  | path _ => "the path cannot be followed"

/-- The blocks of the spec documents that have been asked for. -/
structure SpecIndex where
  /-- The name of the way in which blocks are found. -/
  structureName : String
  /-- The blocks kept under each path, the latest first; `none` for a file that is unreadable. -/
  forests : List (String × Option Forest)

/-- Steps of an audit: they may fail, and they keep what the index has taken in. -/
abbrev Step := ExceptT Fault (StateM SpecIndex)

/-- A result that the index has no part in. -/
def lift {α : Type} (result : Except Fault α) : Step α :=
  ExceptT.mk (pure result)

/-- A result that depends on the settings alone. -/
def ofSettings {α : Type} (result : Except Config.SettingsFault α) : Step α :=
  lift (result.mapError .settings)

/-- A result that depends on the disk alone. -/
def ofDisk {α : Type} (result : Except DiskFault α) : Step α :=
  lift (result.mapError .path)

/-- The methods that a source text defines. -/
def methodsOf (grammar : Grammar) (text : String) :
    Except GrammarFault (List Method.Site) := do
  let tree ← grammar.parse text
  return Method.sites tree.root

end SpecAudit.Audit

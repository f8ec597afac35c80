import SpecAudit.Audit.Index
import SpecAudit.Finding.Basic
import SpecAudit.Path.Convention
import SpecAudit.Spec.Match

/-!
# Specs that mention every public method

Every public method of a covered source file that has a spec is to be mentioned there.  The entry
method of a service counts as mentioned under either kind.
-/

namespace SpecAudit.Audit

open SpecAudit.Config (Settings)
open SpecAudit.Method (Site)
open SpecAudit.Spec (Forest)

/-- The method by which a service object is called, on the class or on an instance. -/
def serviceEntry : String := "call"

/-- Whether a spec mentions a method of a source file. -/
def isMentioned (forest : Forest) (path : String) (site : Site) : Bool :=
  forest.mentions (some site.kind) site.name
    || (site.name == serviceEntry && Path.isService path
      && forest.mentions (some site.kind.other) site.name)

/-- Whether a source file is one whose methods are to be mentioned. -/
def isToBeChecked (settings : Settings) (path : String) : Step Bool :=
  if Path.isSpecFile path then return false else ofSettings (settings.covers path)

/-- The finding about a method that its spec does not mention. -/
def missingSpecFinding (workspace : Workspace) (path specPath : String) (site : Site) :
    Step Finding :=
  ofDisk <| Finding.make workspace.project Cop.publicMethodHasSpec.name path site.name
    site.line site.column
    (Finding.missingSpecMessage site.name (Path.relativeSpecPath specPath path)) .convention
    [("kind", .str site.kind.name), ("spec_path", .str specPath)]

/-- The finding about a method, if it is public, not left out, and not mentioned. -/
def missingSpec? (workspace : Workspace) (settings : Settings) (path specPath : String)
    (forest : Forest) (site : Site) : Step (Option Finding) := do
  if !site.isPublic then return none
  if ← ofSettings (settings.excludesMethod site.name) then return none
  if isMentioned forest path site then return none
  return some (← missingSpecFinding workspace path specPath site)

/-- The findings about methods of a source file that its spec does not mention. -/
def findMissingSpecs (workspace : Workspace) (settings : Settings) (path : String)
    (sites : List Site) : Step (List Finding) := do
  if !(← isToBeChecked settings path) then return []
  match Path.specPath? path with
  | none => return []
  | some specPath =>
    if !(← ofDisk (workspace.project.hasFile specPath)) then return []
    match ← SpecIndex.forest workspace specPath with
    | none => return []
    | some forest =>
      let findings ← sites.mapM (missingSpec? workspace settings path specPath forest)
      return findings.filterMap id

end SpecAudit.Audit

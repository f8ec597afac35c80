import SpecAudit.Audit.Index
import SpecAudit.Finding.Basic
import SpecAudit.Method.BranchCount
import SpecAudit.Path.Convention
import SpecAudit.Spec.Match

/-!
# Contexts for every branch

A method with two branches or more needs as many contexts in its spec as it has branches.  Of every
method it is said whether it is left out, has no spec file, is not mentioned there, has too few
contexts, or is covered; only too few contexts are a finding.
-/

namespace SpecAudit.Audit

open SpecAudit.Config (Settings)
open SpecAudit.Method (Site countBranches)
open SpecAudit.Project (DiskFault)

/-- The fewest branches for which a method needs contexts. -/
def minBranches : Nat := 2

/-- What the audit says of a method. -/
inductive Verdict where
  /-- The file lies outside the covered directories. -/
  | outside
  /-- The method is left out by its name. -/
  | excluded
  /-- There is no spec file. -/
  | noSpecFile
  /-- The method has too few branches to need contexts. -/
  | simple (branches : Nat)
  /-- The spec file cannot be read. -/
  | unreadable (branches : Nat)
  /-- The spec does not mention the method. -/
  | unspecced (branches : Nat)
  /-- There are fewer contexts than branches. -/
  | insufficient (branches contexts : Nat)
  /-- There are as many contexts as branches, or more. -/
  | covered (branches contexts : Nat)
  deriving DecidableEq

namespace Verdict

/-- The state that a method is in. -/
def state : Verdict → String
  | outside | excluded | simple _ => "skipped"
  | noSpecFile | unreadable _ => "no_spec_file"
  | unspecced _ => "unspecced"
  | insufficient _ _ => "insufficient_contexts"
  | covered _ _ => "covered"

/-- Why a method is in its state, where the state alone does not say. -/
def reason : Verdict → String
  | outside => "outside covered directories"
  | excluded => "excluded method"
  | simple _ => "simple"
  | unreadable _ => "unreadable"
  | _ => ""

/-- The branches of the method, where they were counted. -/
def branches? : Verdict → Option Nat
  | outside | excluded | noSpecFile => none
  | simple branches | unreadable branches | unspecced branches => some branches
  | insufficient branches _ | covered branches _ => some branches

/-- The contexts of the method, where they were counted. -/
def contexts? : Verdict → Option Nat
  | unspecced _ => some 0
  | insufficient _ contexts | covered _ contexts => some contexts
  | _ => none

/-- What is reported of a method in a file, if it has too few contexts. -/
def diagnostic? (file : String) (site : Site) : Verdict → Option Diagnostic
  | insufficient branches contexts =>
    some {
      method := site.name
      branches := branches
      contexts := contexts
      missing := branches - contexts
      severity := .convention
      file := file
      line := site.line
      column := site.column }
  | _ => none

/-- The verdict on a method with that many branches and contexts. -/
def ofCounts (branches contexts : Nat) : Verdict :=
  if contexts = 0 then unspecced branches
  else if branches ≤ contexts then covered branches contexts
  else insufficient branches contexts

end Verdict

/-- The verdict on a method of a source file. -/
def auditMethod (workspace : Workspace) (settings : Settings) (path : String) (site : Site) :
    Step Verdict := do
  if !(← ofSettings (settings.covers path)) then return .outside
  if ← ofSettings (settings.excludesMethod site.name) then return .excluded
  match Path.specPath? path with
  | none => return .noSpecFile
  | some specPath =>
    if !(← ofDisk (workspace.project.hasFile specPath)) then return .noSpecFile
    let branches := countBranches settings.ignoreMemoization site.node
    if branches < minBranches then return .simple branches
    match ← SpecIndex.forest workspace specPath with
    | none => return .unreadable branches
    | some forest => return .ofCounts branches (forest.countContexts site.name)

/-- The methods of a source file, each with its verdict. -/
def auditFile (workspace : Workspace) (settings : Settings) (path : String)
    (sites : List Site) : Step (List (Site × Verdict)) :=
  sites.mapM fun site => do
    let verdict ← auditMethod workspace settings path site
    return (site, verdict)

/-- What is reported of audited methods of a file. -/
def diagnostics (path : String) (audited : List (Site × Verdict)) : List Diagnostic :=
  audited.filterMap fun (site, verdict) => verdict.diagnostic? path site

/-- The findings about methods of a source file that have too few contexts. -/
def findInsufficientContexts (workspace : Workspace) (settings : Settings) (path : String)
    (sites : List Site) : Step (List Finding) := do
  let audited ← auditFile workspace settings path sites
  (diagnostics path audited).mapM fun diagnostic =>
    ofDisk (diagnostic.finding workspace.project)

end SpecAudit.Audit

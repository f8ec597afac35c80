import SpecAudit.Finding.Basic
import SpecAudit.Grammar
import SpecAudit.Syntax.Statement
import SpecAudit.Text.Lines
import SpecAudit.Text.Search

/-!
# Eager setup in specs

Finds every `let!` of a spec document: the calls of that name without a receiver, or the lines
that start with it where the document cannot be parsed.
-/

namespace SpecAudit.Audit

open SpecAudit.Project (DiskFault)
open SpecAudit.Syntax SpecAudit.Text

/-- The call that sets something up eagerly. -/
def letBang : String := "let!"

/-- Whether a line starts with the call: what follows it is a blank or an opening bracket. -/
def startsLetBang (line : List Char) : Bool :=
  match afterWord? letBang.toList (trimLeft line) with
  | some (next :: _) => isBlank next || next == '(' || next == '\x7b'
  | _ => false

/-- The lines of a document that start with the call: their numbers and indentations. -/
def letBangLines (text : String) : List (Nat × Nat) :=
  (numberedLines text.toList).filterMap fun (number, line) =>
    if startsLetBang line then some (number, indentOf line) else none

/-- Whether a node is the call. -/
def isLetBang (node : Node) : Bool :=
  node.isCall && !node.hasReceiver && node.methodName == letBang

/-- The lines and columns at which a document calls it. -/
def letBangCalls (grammar : Grammar) (text : String) : List (Nat × Nat) :=
  match grammar.parse text with
  | .error _ => letBangLines text
  | .ok tree =>
    (tree.root.descendants.filter isLetBang).map fun node =>
      (node.label.startPoint.row + 1, node.label.startPoint.column)

/-- The findings about the calls in a spec document. -/
def findLetBangs (project : Project) (grammar : Grammar) (path text : String) :
    Except DiskFault (List Finding) :=
  (letBangCalls grammar text).mapM fun (line, column) =>
    Finding.make project Cop.noLetBang.name path letBang line column Finding.letBangMessage
      .convention []

end SpecAudit.Audit

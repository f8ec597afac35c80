import SpecAudit.Spec.CallForest
import SpecAudit.Spec.Outline

/-!
# How the blocks of a document are found

A document is read by its syntax tree or by its indentation.  The syntax tree is not always there:
the grammar may not be loaded, or the text may have errors.  Then indentation is used instead.
-/

namespace SpecAudit.Spec

/-- How the blocks of spec documents are found. -/
inductive Structure where
  /-- By the syntax tree, and by indentation where there is none. -/
  | byTree
  /-- By indentation. -/
  | byIndent
  deriving DecidableEq

namespace Structure

/-- The name of a way to find blocks. -/
def name : Structure → String
  | byTree => "syntax"
  | byIndent => "indent"

/-- Every way to find blocks. -/
def all : List Structure := [byTree, byIndent]

/-- The way to find blocks that has a name. -/
def ofName? (name : String) : Option Structure :=
  all.find? (·.name == name)

/-- A way to find blocks is found by its name. -/
theorem ofName?_name (way : Structure) : ofName? way.name = some way := by
  cases way <;> decide

end Structure

/-- The blocks of a document, found in the given way. -/
def forestOf (grammar : Grammar) (way : Structure) (text : String) : Forest :=
  match way with
  | .byTree => (callForest? grammar text).getD (outlineForest text)
  | .byIndent => outlineForest text

end SpecAudit.Spec

/-!
# Messages of the checks

The sentences in which the checks report what they find.
-/

namespace SpecAudit.Finding

/-- A word in the number that fits a count. -/
def pluralize (word : String) (count : Int) : String :=
  if count == 1 then word
  else if word == "branch" then "branches"
  else if word == "context" then "contexts"
  else word ++ "s"

/-- The sentence about a method that has fewer contexts than branches. -/
def contextsMessage (method : String) (branches contexts : Int) : String :=
  let missing := branches - contexts
  let branchWord := pluralize "branch" branches
  let contextWord := pluralize "context" contexts
  let missingWord := pluralize "context" missing
  s!"Method `{method}` has {branches} {branchWord} but only {contexts} {contextWord} in spec. "
    ++ s!"Add {missing} more {missingWord} to cover all branches."

/-- The sentence about a public method that its spec does not mention. -/
def missingSpecMessage (method specPath : String) : String :=
  s!"Missing spec for public method `{method}`. "
    ++ s!"Expected describe '#{method}' or describe '.{method}' in {specPath}"

/-- The sentence about a spec that sets something up eagerly. -/
def letBangMessage : String :=
  "Do not use `let!`. Use `let` with explicit reference or `before` block instead."

end SpecAudit.Finding

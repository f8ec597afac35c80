import SpecAudit.Method.Kind
import SpecAudit.Spec.Keyword
import SpecAudit.Spec.Verb

/-!
# Which blocks describe a method

A group describes a method when its subject is the method's name, bare or behind the mark of its
kind.  A scenario describes a method when its title says that it tests, checks, verifies or
validates it.
-/

namespace SpecAudit.Spec

open SpecAudit.Text
open SpecAudit.Method (MethodKind)

/-- The marks that may stand before a method's name; without a kind, those of both kinds. -/
def kindMarks : Option MethodKind → List String
  | some .instanceMethod => ["", "#"]
  | some .classMethod => ["", "."]
  | none => ["", "#", "."]

/-- Whether a subject, if there is one, names a method of the kind, or of any kind. -/
def subjectMatches (kind : Option MethodKind) (name : String) (subject : Option String) : Bool :=
  match subject with
  | none => false
  | some subject => ((kindMarks kind).map (· ++ name)).contains (trimmed subject)

/-- Whether a block is a group that describes a method. -/
def Block.describes (kind : Option MethodKind) (name : String) (block : Block) : Bool :=
  block.isGroup && subjectMatches kind name block.subject?

namespace Block

mutual

/-- The outermost groups that describe a method, in a block and below it. -/
def methodGroups (kind : Option MethodKind) (name : String) : Block → List Block
  | block heading children =>
    if (block heading children).describes kind name then [block heading children]
    else methodGroupsOf kind name children

/-- The outermost groups that describe a method, in a list of blocks and below them. -/
def methodGroupsOf (kind : Option MethodKind) (name : String) : List Block → List Block
  | [] => []
  | first :: rest => methodGroups kind name first ++ methodGroupsOf kind name rest

end

/-- The title of a block: its subject, or its whole heading if it has none or an empty one. -/
def title (block : Block) : String :=
  match block.subject? with
  | some subject => if subject.isEmpty then block.heading.text else subject
  | none => block.heading.text

end Block

namespace Forest

/-- The outermost groups that describe a method, in document order. -/
def methodGroups (forest : Forest) (kind : Option MethodKind) (name : String) : List Block :=
  Block.methodGroupsOf kind name forest

/-- Whether some scenario's title says that it tests the method. -/
def hasVerbScenario (forest : Forest) (name : String) : Bool :=
  forest.allBlocks.any fun block => !block.isGroup && (verbSpan? name block.title).isSome

/-- How many contexts a document has for a method.  The groups directly inside the groups that
describe it are counted; if there are none but a scenario stands directly in such a group, that
is one context, and so is a scenario that tests the method where no group describes it. -/
def countContexts (forest : Forest) (name : String) : Nat :=
  let groups := forest.methodGroups none name
  if groups.isEmpty then
    if forest.hasVerbScenario name then 1 else 0
  else
    let contexts := (groups.map (·.childGroups.length)).foldr (· + ·) 0
    if contexts = 0 ∧ groups.any (fun group => !group.childScenarios.isEmpty) then 1
    else contexts

/-- Whether a document mentions a method of the kind, or of any kind. -/
def mentions (forest : Forest) (kind : Option MethodKind) (name : String) : Bool :=
  !(forest.methodGroups kind name).isEmpty || forest.hasVerbScenario name

end Forest

end SpecAudit.Spec

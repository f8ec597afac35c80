import SpecAudit.Syntax.Node

/-!
# The grammar of the sources

Sources are parsed with a grammar that may be loaded or not.  Where it is not, the reason tells
whether there is no grammar of that name or whether it could not be set up.
-/

namespace SpecAudit

open SpecAudit.Syntax (Tree)

/-- The grammar that sources and specs are parsed with. -/
inductive Grammar where
  /-- The grammar is loaded and gives every text a tree. -/
  | loaded (parse : String → Tree)
  /-- There is no grammar. -/
  | missing
  /-- The grammar could not be set up. -/
  | broken (reason : String)

/-- Why a text cannot be parsed. -/
inductive GrammarFault where
  /-- There is no grammar. -/
  | missing
  /-- The grammar could not be set up. -/
  | broken (reason : String)

/-- The language of the sources. -/
def sourceLanguage : String := "ruby"

/-- The text that reports why a grammar is not loaded. -/
def GrammarFault.message : GrammarFault → String
  | .missing => sourceLanguage
  | .broken reason => s!"cannot load the {sourceLanguage} grammar: {reason}"

namespace Grammar

/-- The tree of a text. -/
def parse (grammar : Grammar) (text : String) : Except GrammarFault Tree :=
  match grammar with
  | loaded parse => .ok (parse text)
  | missing => .error .missing
  | broken reason => .error (.broken reason)

/-- Whether the grammar is loaded. -/
def isAvailable : Grammar → Bool
  | loaded _ => true
  | _ => false

end Grammar

end SpecAudit

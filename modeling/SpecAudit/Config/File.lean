import SpecAudit.Config.Schema
import SpecAudit.Json.Parser
import SpecAudit.Json.Printer
import SpecAudit.Json.Writing

/-!
# The configuration file

A configuration is saved as an object with every field on a line of its own.  Loading takes any
bytes: what is no object has no fields, and the configuration is repaired in any case.
-/

namespace SpecAudit.Config

/-- The fields that the bytes of a configuration file hold: none unless they are an object. -/
def fieldsOf (content : ByteArray) : Except Json.ReadError Fields :=
  match String.fromUTF8? content with
  | none => .ok []
  | some text =>
    match Json.read text with
    | .ok (.obj fields) => .ok fields
    | .ok _ => .ok []
    | .error .malformed => .ok []
    | .error fault => .error fault

/-- The configuration that a file holds, if it is there and can be read. -/
def load (content? : Option ByteArray) : Except Json.ReadError Fields :=
  match content? with
  | none => .ok (repaired [])
  | some content => (fieldsOf content).map repaired

/-- The text that a configuration is saved as. -/
def saved (fields : Fields) : String :=
  (Json.obj fields).indented ++ "\n"

/-- Save a configuration, which fails if an integer in it is too long. -/
def save (fields : Fields) : Except Json.WriteError String :=
  (Json.obj fields).write.map (· ++ "\n")

end SpecAudit.Config

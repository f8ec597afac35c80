import SpecAudit.Config.Change
import SpecAudit.Config.File

/-!
# A configuration beside its file

A configuration is held in memory and saved to a file, which may lag behind it.  Actions change the
one or the other; an action that fails leaves both as they were.
-/

namespace SpecAudit.Config

/-- What can be done with a configuration and its file. -/
inductive Action where
  /-- Give every key its default and forget the other keys. -/
  | reset
  /-- Take the configuration that the file holds. -/
  | load
  /-- Set a key from a text. -/
  | set (name text : String)
  /-- Give a key its default. -/
  | unset (name : String)
  /-- Save the configuration to the file. -/
  | save

/-- Why an action fails. -/
inductive ActionFault where
  /-- The key cannot be set or unset. -/
  | change (fault : Fault)
  /-- The file cannot be read as data. -/
  | reading (fault : Json.ReadError)
  /-- The configuration cannot be written. -/
  | writing (fault : Json.WriteError)

/-- A configuration and the content of its file, if the file is there. -/
structure Store where
  fields : Fields
  content? : Option ByteArray

namespace Store

/-- No configuration, and no file. -/
def empty : Store := ⟨[], none⟩

/-- The default configuration, and no file. -/
def standard : Store := ⟨defaults, none⟩

/-- The store with another configuration. -/
def withFields (store : Store) (fields : Fields) : Store :=
  { store with fields := fields }

/-- The store with another content of its file. -/
def withContent (store : Store) (text : String) : Store :=
  { store with content? := some text.toUTF8 }

/-- The store after an action. -/
def perform (store : Store) (action : Action) : Except ActionFault Store :=
  match action with
  | .reset => .ok (store.withFields defaults)
  | .load => ((Config.load store.content?).map store.withFields).mapError .reading
  | .set name text =>
    ((Config.set name text store.fields).map store.withFields).mapError .change
  | .unset name => ((Config.unset name store.fields).map store.withFields).mapError .change
  | .save => ((Config.save store.fields).map store.withContent).mapError .writing

/-- The store after an action, as it was if the action fails. -/
def attempt (store : Store) (action : Action) : Store :=
  match store.perform action with
  | .ok next => next
  | .error _ => store

/-- The store after actions, one after the other. -/
def run (store : Store) (actions : List Action) : Store :=
  actions.foldl attempt store

end Store

end SpecAudit.Config

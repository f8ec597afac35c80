import SpecAudit.Config.Schema
import SpecAudit.Text.Blank

/-!
# Changing the configuration

A key is set from a text, in a way that depends on its type, or unset to its default.  Either
changes that one key or fails and changes nothing.  Both are given as a function of the
configuration, and as steps that change it in place.
-/

namespace SpecAudit.Config

open SpecAudit.Text

/-- Why a key cannot be set or unset. -/
inductive Fault where
  /-- There is no such key. -/
  | unknownKey (key : String)
  /-- The text names no truth value. -/
  | notTruth (key text : String)
  /-- The text is none of the choices. -/
  | notChoice (key text : String) (choices : List String)
  /-- The value that the key has cannot be searched for items. -/
  | notSearchable
  /-- The value that the key has cannot take another item. -/
  | notExtendable

/-- The text that reports why a key cannot be set or unset. -/
def Fault.message : Fault → String
  | unknownKey key => s!"Unknown config key: {key}"
  | notTruth key text => s!"Expected true/false for {key}, got: {text}"
  | notChoice key text choices =>
    let listed := String.intercalate ", " choices
    s!"Expected one of {listed} for {key}, got: {text}"
  | notSearchable => "the value cannot be searched"
  | notExtendable => "the value cannot be extended"

/-- A text cut at every comma. -/
def commaPieces : List Char → List (List Char)
  | [] => [[]]
  | character :: rest =>
    if character == ',' then [] :: commaPieces rest
    else
      match commaPieces rest with
      | piece :: pieces => (character :: piece) :: pieces
      | [] => [[character]]

/-- The items that a text lists: its pieces between commas, trimmed, without empty ones. -/
def listedItems (text : String) : List String :=
  (((commaPieces text.toList).map trim).filter (!·.isEmpty)).map String.ofList

/-- Whether a text holds another as a contiguous part. -/
def holdsText (part : List Char) : List Char → Bool
  | [] => part.isEmpty
  | character :: rest => part.isPrefixOf (character :: rest) || holdsText part rest

/-- Add an item to a list unless it is there. -/
def addItem (items : List Json) (item : String) : List Json :=
  if items.any (· == .str item) then items else items ++ [.str item]

/-- Add items to a stored value.  Only a list takes items; of another value all that can be asked
is whether it holds the item already. -/
def addItems (stored : Json) (items : List String) : Except Fault Json :=
  match stored with
  | .arr old => .ok (.arr (items.foldl addItem old))
  | .str text =>
    if items.all fun item => holdsText item.toList text.toList then .ok stored
    else .error .notExtendable
  | .obj fields =>
    if items.all (Fields.keys fields).contains then .ok stored else .error .notExtendable
  | _ => if items.isEmpty then .ok stored else .error .notSearchable

/-- The truth value that a text names, in any letter case. -/
def truthOf? (text : String) : Option Bool :=
  let lower := text.map Char.toLower
  if ["true", "1", "yes"].contains lower then some true
  else if ["false", "0", "no"].contains lower then some false
  else none

/-- The value that a key has after a text is set for it; `stored` is the value that it has. -/
def newValue (key : Key) (stored : Option Json) (text : String) : Except Fault Json :=
  match key.type with
  | .truth =>
    match truthOf? text with
    | some value => .ok (.bool value)
    | none => .error (.notTruth key.name text)
  | .list => addItems (stored.getD (.arr [])) (listedItems text)
  | .choice choices =>
    if choices.contains text then .ok (.str text) else .error (.notChoice key.name text choices)

/-- Set a key from a text: a truth value, items to add to a list, or a choice. -/
def set (name text : String) (fields : Fields) : Except Fault Fields :=
  match key? name with
  | none => .error (.unknownKey name)
  | some key => (newValue key (fields.get? name) text).map (fields.put name ·)

/-- Give a key its default. -/
def unset (name : String) (fields : Fields) : Except Fault Fields :=
  match key? name with
  | none => .error (.unknownKey name)
  | some key => .ok (fields.put name key.default)

/-! ## In place -/

/-- Steps that change a configuration in place, and that may fail on the way. -/
abbrev Edit := ExceptT Fault (StateM Fields)

/-- What steps give from a configuration, and the configuration they leave. -/
def Edit.outcome {α : Type} (edit : Edit α) (fields : Fields) : Except Fault α × Fields :=
  edit.run fields

/-- A result that the configuration has no part in. -/
def Edit.lift {α : Type} (result : Except Fault α) : Edit α :=
  ExceptT.mk (pure result)

/-- Whether a stored value holds an item, if it can be searched. -/
def holdsItem (stored : Json) (item : String) : Except Fault Bool :=
  match stored with
  | .arr items => .ok (items.any (· == .str item))
  | .str text => .ok (holdsText item.toList text.toList)
  | .obj fields => .ok ((Fields.keys fields).contains item)
  | _ => .error .notSearchable

/-- A stored value with an item at its end, if it can be extended. -/
def withItem (stored : Json) (item : String) : Except Fault Json :=
  match stored with
  | .arr items => .ok (.arr (items ++ [.str item]))
  | _ => .error .notExtendable

/-- Add an item to the value of a name, in place, unless the value holds it. -/
def addInPlace (name item : String) : Edit Unit := do
  let stored := ((← get).get? name).getD .null
  let held ← Edit.lift (holdsItem stored item)
  if held then return
  let extended ← Edit.lift (withItem stored item)
  modify (·.put name extended)

/-- Set a key in place.  A list key without a value gets an empty list, and then the items of the
text one after the other. -/
def setInPlace (name text : String) : Edit Unit :=
  match key? name with
  | none => throw (.unknownKey name)
  | some key =>
    match key.type with
    | .truth =>
      match truthOf? text with
      | some value => modify (·.put name (.bool value))
      | none => throw (.notTruth name text)
    | .list => do
      modify fun fields =>
        if fields.has name then fields else fields.put name (.arr [])
      forM (listedItems text) (addInPlace name)
    | .choice choices =>
      if choices.contains text then modify (·.put name (.str text))
      else throw (.notChoice name text choices)

/-- Give a key its default in place. -/
def unsetInPlace (name : String) : Edit Unit :=
  match key? name with
  | none => throw (.unknownKey name)
  | some key => modify (·.put name key.default)

end SpecAudit.Config

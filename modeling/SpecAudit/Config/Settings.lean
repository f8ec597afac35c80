import SpecAudit.Config.Schema
import SpecAudit.Json.Printer
import SpecAudit.Path.Convention

/-!
# Settings of an audit

What the checks take from a configuration.  The lists are kept as they are configured, so that an
entry that is no text shows only where it is used.
-/

namespace SpecAudit.Config

/-- Why settings cannot be taken from a configuration, or an entry of theirs cannot be used. -/
inductive SettingsFault where
  /-- A value that should be a list has no items. -/
  | noItems
  /-- An entry that should be a name is a collection. -/
  | collectionAsName
  /-- A covered directory is not a text. -/
  | directoryNotText
  /-- The start of an excluded name is not a text. -/
  | startNotText
  deriving DecidableEq

/-- What the checks take from a configuration. -/
structure Settings where
  /-- Whether memoization idioms have no branches. -/
  ignoreMemoization : Bool
  /-- The directories below `app` whose sources are covered. -/
  coveredDirectories : List Json
  /-- The names of methods that are left out. -/
  excludedMethods : List Json
  /-- How the names of methods start that are left out. -/
  excludedStarts : List Json
  /-- How the blocks of specs are found. -/
  specStructure : Spec.Structure
  /-- The names of the checks that are not run. -/
  disabledCops : List Json

/-- The items of a value: of a list its items, of a text its characters, of an object its keys. -/
def itemsOf : Json → Except SettingsFault (List Json)
  | .arr items => .ok items
  | .str text => .ok (text.toList.map fun character => .str (String.singleton character))
  | .obj fields => .ok ((Fields.keys fields).map .str)
  | _ => .error .noItems

/-- The integer that an entry counts as among names: a truth value counts as one or zero, and a
double as the integer that it is. -/
def countsAs : Json → Json
  | .bool true => .int 1
  | .bool false => .int 0
  | .real value => (value.integer?.map .int).getD (.real value)
  | value => value

/-- The entries of a set of names, without those that count as an earlier one. -/
def distinctEntries (entries : List Json) : List Json :=
  entries.foldl
    (fun kept entry =>
      if kept.any (countsAs · == countsAs entry) then kept else kept ++ [entry])
    []

/-- Whether an entry can be among names. -/
def isPlain : Json → Bool
  | .arr _ => false
  | .obj _ => false
  | _ => true

/-- The names that a value lists. -/
def namesOf (value : Json) : Except SettingsFault (List Json) := do
  let items ← itemsOf value
  if items.all isPlain then return distinctEntries items else throw .collectionAsName

namespace Settings

/-- The value of a key, or its default. -/
def configured (fields : Fields) (name : String) : Json :=
  (fields.get? name).getD ((defaults.get? name).getD .null)

/-- The settings of a configuration; an unknown way to find blocks is that by syntax tree. -/
def ofConfig (fields : Fields) : Except SettingsFault Settings := do
  let structureName := (configured fields "spec_structure").text?
  let covered ← itemsOf (configured fields "covered_directories")
  let methods ← namesOf (configured fields "excluded_methods")
  let starts ← itemsOf (configured fields "excluded_prefixes")
  let disabled ← namesOf (configured fields "disabled_cops")
  return {
    ignoreMemoization := (configured fields "ignore_memoization").truthy
    coveredDirectories := covered
    excludedMethods := methods
    excludedStarts := starts
    specStructure := (structureName.bind Spec.Structure.ofName?).getD .byTree
    disabledCops := disabled }

/-- The settings where nothing is configured. -/
def standard : Settings where
  ignoreMemoization := true
  coveredDirectories := defaultCovered.map .str
  excludedMethods := defaultExcludedMethods.map .str
  excludedStarts := defaultExcludedStarts.map .str
  specStructure := .byTree
  disabledCops := []

/-- Whether one of the entries is the start of a name; they are tried in order. -/
def anyStarts (name : String) : List Json → Except SettingsFault Bool
  | [] => .ok false
  | .str start :: rest =>
    if start.toList.isPrefixOf name.toList then .ok true else anyStarts name rest
  | _ :: _ => .error .startNotText

/-- Whether a method is left out by its name. -/
def excludesMethod (settings : Settings) (name : String) : Except SettingsFault Bool :=
  if settings.excludedMethods.any (· == .str name) then .ok true
  else anyStarts name settings.excludedStarts

/-- Whether a path lies in one of the directories; they are tried in order. -/
def anyCovers (path : String) : List Json → Except SettingsFault Bool
  | [] => .ok false
  | .str directory :: rest =>
    if Path.isUnder directory path then .ok true else anyCovers path rest
  | _ :: _ => .error .directoryNotText

/-- Whether a path lies in a covered directory. -/
def covers (settings : Settings) (path : String) : Except SettingsFault Bool :=
  anyCovers path settings.coveredDirectories

/-- Whether the check of a name is run. -/
def enables (settings : Settings) (cop : String) : Bool :=
  !settings.disabledCops.any (· == .str cop)

/-- The settings with more checks that are not run. -/
def disabling (cops : List String) (settings : Settings) : Settings :=
  { settings with disabledCops := distinctEntries (settings.disabledCops ++ cops.map .str) }

end Settings

/-- The text that an entry is listed under. -/
def listedAs : Json → String
  | .null => "None"
  | .bool true => "True"
  | .bool false => "False"
  | .int value => String.ofList (Json.writtenInt value)
  | .real value => Json.shownDouble value
  | .str text => text
  | value => value.compact

/-- Entries in the order of the texts they are listed under. -/
def listed (entries : List Json) : List Json :=
  entries.mergeSort fun left right => !(listedAs right < listedAs left)

end SpecAudit.Config

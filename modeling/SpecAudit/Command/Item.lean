import SpecAudit.Command.Interface

/-!
# What arguments are

Every argument of a level is an option, an operand or the separator `--`, after which there are only
operands.  A long option may be shortened as long as it is not ambiguous, and may have a text
attached with an equals sign; a negative number and a text with a space are operands.
-/

namespace SpecAudit.Command

/-- An option that an argument names, and the text attached to it: behind an equals sign, or
directly behind the name. -/
structure Found where
  option : OptionSpec
  attached? : Option (Bool × String)

/-- What an argument is. -/
inductive ArgumentKind where
  | operand
  | separator
  | unknown
  | known (found : Found)

/-- An argument and what it is. -/
abbrev Item := String × ArgumentKind

/-- A text before its first equals sign, and what follows the sign. -/
def cutAtEquals (text : List Char) : List Char × Option (List Char) :=
  match text.dropWhile (· != '=') with
  | [] => (text, none)
  | _ :: rest => (text.takeWhile (· != '='), some rest)

/-- The option that goes by a name. -/
def exactOption? (options : List OptionSpec) (name : String) : Option OptionSpec :=
  options.find? (·.names.contains name)

/-- The options that an argument may be short for, with the name that it is short for. -/
def candidates (options : List OptionSpec) (argument : List Char) : List (String × Found) :=
  let named := options.flatMap fun option => option.names.map fun name => (name, option)
  match argument with
  | '-' :: '-' :: _ =>
    let (start, attached?) := cutAtEquals argument
    let fits := named.filter fun (name, _) => start.isPrefixOf name.toList
    let attached? := attached?.map fun text => (true, String.ofList text)
    fits.map fun (name, option) => (name, ⟨option, attached?⟩)
  | first :: second :: rest =>
    named.filterMap fun (name, option) =>
      if name.toList == [first, second] then
        some (name, ⟨option, some (false, String.ofList rest)⟩)
      else if argument.isPrefixOf name.toList then some (name, ⟨option, none⟩)
      else none
  | _ => []

/-- Whether digits make up a whole text, which is not empty. -/
def areDigits (text : List Char) : Bool :=
  !text.isEmpty && text.all Char.isDigit

/-- Whether an argument is a negative number. -/
def isNegativeNumber (argument : List Char) : Bool :=
  match argument with
  | '-' :: rest =>
    areDigits rest
      || match rest.dropWhile Char.isDigit with
        | '.' :: fraction => areDigits fraction
        | _ => false
  | _ => false

/-- What a single argument is at a level, or the message that it is ambiguous. -/
def classify (options : List OptionSpec) (argument : String) : Except String ArgumentKind :=
  let characters := argument.toList
  match characters with
  | '-' :: _ :: _ =>
    match exactOption? options argument with
    | some option => .ok (.known ⟨option, none⟩)
    | none =>
      let (name, attached?) := cutAtEquals characters
      match attached?, exactOption? options (String.ofList name) with
      | some text, some option => .ok (.known ⟨option, some (true, String.ofList text)⟩)
      | _, _ =>
        match candidates options characters with
        | [(_, found)] => .ok (.known found)
        | [] =>
          if isNegativeNumber characters || characters.contains ' ' then .ok .operand
          else .ok .unknown
        | several =>
          let names := String.intercalate ", " (several.map Prod.fst)
          .error s!"ambiguous option: {argument} could match {names}"
  | _ => .ok .operand

/-- The arguments of a level with what they are; after a separator all are operands. -/
def items (options : List OptionSpec) : List String → Except String (List Item)
  | [] => .ok []
  | argument :: rest =>
    if argument == "--" then
      .ok ((argument, .separator) :: rest.map fun operand => (operand, .operand))
    else do
      let kind ← classify options argument
      let others ← items options rest
      return (argument, kind) :: others

/-- Whether an argument is an option, known or not. -/
def isOption : Item → Bool
  | (_, .known _) => true
  | (_, .unknown) => true
  | _ => false

/-- Whether an argument is a separator. -/
def isSeparator : Item → Bool
  | (_, .separator) => true
  | _ => false

end SpecAudit.Command

import SpecAudit.Command.Item
import SpecAudit.Text.Quoted

/-!
# Reading the command line

Arguments are read level by level.  At each level options and operands are taken in turn; a command
takes all that follows it.  Arguments that no level knows are collected and refused at the end.
-/

namespace SpecAudit.Command

open SpecAudit.Text (quoted)

/-- Why the command line leads to no command: help was asked for, or it cannot be read. -/
inductive Stop where
  /-- The help text of a level was asked for. -/
  | help (interface : Interface)
  /-- A level cannot read its arguments. -/
  | failure (interface : Interface) (message : String)

/-- What has been read of a command line: the options with their texts, the operands, the commands,
and what no level knows.  An operand is missing where only separators were given for it. -/
structure Parsed where
  given : List (String × String)
  operands : List (Option String)
  commands : List String
  unknown : List String

namespace Parsed

/-- A command line of which nothing has been read. -/
def empty : Parsed := ⟨[], [], [], []⟩

/-- The texts given for an option, in order. -/
def texts (parsed : Parsed) (option : String) : List String :=
  (parsed.given.filter (·.1 == option)).map Prod.snd

end Parsed

/-- The name of an option in messages. -/
def OptionSpec.shown (option : OptionSpec) : String :=
  String.intercalate "/" option.names

/-- The name under which the texts of an option are kept. -/
def OptionSpec.key (option : OptionSpec) : String :=
  option.names.getLastD ""

/-- The message that an attached text is not taken. -/
def ignoredText (option : OptionSpec) (text : String) : String :=
  let word := quoted text
  s!"argument {option.shown}: ignored explicit argument {word}"

/-- Asking for help with a text attached to the short option: the text may be made of further
short options, of which only the first that is not `h` matters, and it ends the chain. -/
def helpChain (interface : Interface) (option : OptionSpec) (behindEquals : Bool) :
    List Char → Stop
  | [] => .failure interface (ignoredText option "")
  | first :: rest =>
    if behindEquals || first == '-' then
      .failure interface (ignoredText option (String.ofList (first :: rest)))
    else if first == 'h' then
      match rest with
      | [] => .help interface
      | '=' :: text => .failure interface (ignoredText option (String.ofList text))
      | rest => helpChain interface option false rest
    else .help interface

/-- Words listed for a message, each quoted. -/
def quotedList (words : List String) : String :=
  String.intercalate ", " (words.map quoted)

/-- Take a text for an option, if it is one of the choices. -/
def takeText (interface : Interface) (option : OptionSpec) (choices : List String)
    (text : String) (parsed : Parsed) : Except Stop Parsed :=
  if choices.isEmpty || choices.contains text then
    .ok { parsed with given := parsed.given ++ [(option.key, text)] }
  else
    let word := quoted text
    let listed := quotedList choices
    .error (.failure interface
      s!"argument {option.shown}: invalid choice: {word} (choose from {listed})")

/-- Take an option and what belongs to it; `rest` are the arguments after it. -/
def takeOption (interface : Interface) (found : Found) (rest : List Item) (parsed : Parsed) :
    Except Stop (Parsed × List Item) :=
  let option := found.option
  match option.kind, found.attached? with
  | .help, none => .error (.help interface)
  | .help, some (false, text) => .error (helpChain interface option false text.toList)
  | .help, some (true, text) => .error (.failure interface (ignoredText option text))
  | .truth, none => .ok ({ parsed with given := parsed.given ++ [(option.key, "")] }, rest)
  | .truth, some (_, text) => .error (.failure interface (ignoredText option text))
  | .text choices, some (_, text) => do
    return (← takeText interface option choices text parsed, rest)
  | .text choices, none =>
    match rest with
    | (text, .operand) :: rest => do
      return (← takeText interface option choices text parsed, rest)
    | _ => .error (.failure interface s!"argument {option.shown}: expected one argument")

/-- A place that operands fill: a named operand, or a command with all that follows it. -/
inductive Slot where
  | operand (name : String)
  | command (choice : Choice)

/-- How the arguments of a command are read. -/
abbrev Reader := String → List String → Except Stop Parsed

/-- Read a command and what follows it. -/
def takeCommand (interface : Interface) (reader : Reader) (choice : Choice) (words : List String)
    (parsed : Parsed) : Except Stop (Parsed × List String) :=
  match words with
  | [] => .ok (parsed, [])
  | command :: rest =>
    if choice.commands.contains command then do
      let inner ← reader command rest
      return ({ parsed with
        given := parsed.given ++ inner.given
        operands := parsed.operands ++ inner.operands
        commands := parsed.commands ++ command :: inner.commands }, inner.unknown)
    else
      let word := quoted command
      let listed := quotedList choice.commands
      .error (.failure interface
        s!"argument {choice.name}: invalid choice: {word} (choose from {listed})")

/-- What is left to be done at a level: the slots that are not filled, the arguments that are not
read, and those that the level of a command did not know. -/
structure Remaining where
  slots : List Slot
  items : List Item
  unknown : List String

/-- Fill as many slots as the next arguments allow. -/
def takeOperands (interface : Interface) (reader : Reader) :
    List Slot → List Item → Parsed → Except Stop (Parsed × Remaining)
  | [], items, parsed => .ok (parsed, ⟨[], items, []⟩)
  | slot :: slots, items, parsed =>
    match items.dropWhile isSeparator, slot with
    | (operand, .operand) :: rest, .operand _ =>
      let before := (items.takeWhile isSeparator).map Prod.fst
      let after := (rest.takeWhile isSeparator).map Prod.fst
      let text? := ((before ++ operand :: after).erase "--").head?
      takeOperands interface reader slots (rest.dropWhile isSeparator)
        { parsed with operands := parsed.operands ++ [text?] }
    | (_, .operand) :: _, .command choice => do
      let (parsed, unknown) ←
        takeCommand interface reader choice (items.map Prod.fst) parsed
      return (parsed, ⟨slots, [], unknown⟩)
    | _, _ => .ok (parsed, ⟨slot :: slots, items, []⟩)

/-- Take options and operands in turn until all arguments of a level are read. -/
def takeItems (interface : Interface) (reader : Reader) :
    Nat → Remaining → Parsed → Except Stop (Parsed × Remaining)
  | 0, remaining, parsed => .ok (parsed, remaining)
  | fuel + 1, remaining, parsed =>
    match remaining.items with
    | (_, .known found) :: rest => do
      let (parsed, rest) ← takeOption interface found rest parsed
      takeItems interface reader fuel { remaining with items := rest } parsed
    | (argument, .unknown) :: rest =>
      takeItems interface reader fuel { remaining with items := rest }
        { parsed with unknown := parsed.unknown ++ [argument] }
    | items => do
      let (parsed, after) ← takeOperands interface reader remaining.slots items parsed
      let after := { after with unknown := remaining.unknown ++ after.unknown }
      if after.items.length < items.length && after.items.any isOption then
        takeItems interface reader fuel after parsed
      else
        let passed := (after.items.takeWhile (!isOption ·)).map Prod.fst
        let after := { after with items := after.items.dropWhile (!isOption ·) }
        let parsed := { parsed with unknown := parsed.unknown ++ passed }
        if after.items.isEmpty then return (parsed, after)
        else takeItems interface reader fuel after parsed

/-- The places that operands fill at a level. -/
def slotsOf (interface : Interface) : List Slot :=
  interface.operands.map .operand ++ (interface.choice?.map .command).toList

/-- The names of the slots that have to be filled. -/
def requiredNames (slots : List Slot) : List String :=
  slots.filterMap fun
    | .operand name => some name
    | .command choice => if choice.required then some choice.name else none

/-- Read the arguments of a level; `reader` reads those of a command given there. -/
def readLevel (interface : Interface) (reader : Reader) (arguments : List String) :
    Except Stop Parsed := do
  let items ← (items interface.options arguments).mapError (Stop.failure interface)
  let start : Remaining := ⟨slotsOf interface, items, []⟩
  let (parsed, remaining) ← takeItems interface reader (2 * items.length + 1) start .empty
  match requiredNames remaining.slots with
  | [] => return { parsed with unknown := parsed.unknown ++ remaining.unknown }
  | names =>
    let listed := String.intercalate ", " names
    throw (.failure interface s!"the following arguments are required: {listed}")

/-- A level at which no command can be given. -/
def readLeaf (interface : Interface) (arguments : List String) : Except Stop Parsed :=
  readLevel interface (fun _ _ => .ok .empty) arguments

/-- Read the arguments of a command that handles the configuration. -/
def readConfigCommand : Reader
  | "show" => readLeaf showInterface
  | "set" => readLeaf setInterface
  | _ => readLeaf unsetInterface

/-- Read the arguments of a command. -/
def readCommand : Reader
  | "scan" => readLeaf scanInterface
  | _ => readLevel configInterface readConfigCommand

/-- Read the arguments of the program. -/
def readArguments (arguments : List String) : Except Stop Parsed := do
  let parsed ← readLevel programInterface readCommand arguments
  if parsed.unknown.isEmpty then return parsed
  else
    let listed := String.intercalate " " parsed.unknown
    throw (.failure programInterface s!"unrecognized arguments: {listed}")

end SpecAudit.Command

import SpecAudit.Text.Search
import SpecAudit.Text.Word

/-!
# Titles that say what they test

A title tests a method when one of a few verbs, in any letter case, stands in it as a word of its
own, followed by blanks, at most one mark `#` or `.`, and the method's name, which no word
character may continue.
-/

namespace SpecAudit.Spec

open SpecAudit.Text

/-- The verbs, in lower case. -/
def verbs : List (List Char) :=
  ["tests", "test", "checks", "check", "verify", "verifies", "validates", "validate"].map
    String.toList

/-- The lower-case ASCII letter that a character is a case variant of: the long s of `s`, the
kelvin sign of `k`, the dotless and the dotted i of `i`; otherwise the character itself. -/
def foldCase (character : Char) : Char :=
  if character.toNat = 0x17f then 's'
  else if character.toNat = 0x212a then 'k'
  else if character.toNat = 0x131 ∨ character.toNat = 0x130 then 'i'
  else character.toLower

/-- How many characters a verb takes up at the start of a text, in any letter case, if a blank
follows it. -/
def verbLength? (text : List Char) : Option Nat :=
  let isHere := fun (verb : List Char) =>
    (text.take verb.length).map foldCase == verb
      && match text.drop verb.length with
        | character :: _ => isBlank character
        | [] => false
  (verbs.find? isHere).map List.length

/-- Whether a text starts with a name that no word character continues. -/
def startsWithName (name text : List Char) : Bool :=
  match afterWord? name text with
  | some rest => startsOrEnds (!isWord ·) rest
  | none => false

/-- How many characters a name takes up at the start of a text, with the mark before it. -/
def markedNameLength? (name text : List Char) : Option Nat :=
  let bare := if startsWithName name text then some name.length else none
  match text with
  | mark :: rest =>
    if (mark == '#' || mark == '.') && startsWithName name rest then some (name.length + 1)
    else bare
  | [] => bare

/-- How many characters blanks and a name take up at the start of a text, with as many blanks
as leave a name behind them. -/
def spacedNameLength? (name : List Char) : List Char → Option Nat
  | [] => none
  | character :: rest =>
    if isBlank character then
      ((spacedNameLength? name rest).orElse fun _ => markedNameLength? name rest).map (· + 1)
    else none

/-- How many characters a verb with a method's name takes up at the start of a text. -/
def verbPhraseLength? (name text : List Char) : Option Nat := do
  let verb ← verbLength? text
  let tail ← spacedNameLength? name (text.drop verb)
  return verb + tail

/-- The first place after `position` characters where a verb with the name stands as a word; it
may stand right here if `free`. -/
def findVerbPhrase? (name : List Char) (position : Nat) (free : Bool) :
    List Char → Option (Nat × Nat)
  | [] => none
  | character :: rest =>
    match if free then verbPhraseLength? name (character :: rest) else none with
    | some length => some (position, position + length)
    | none => findVerbPhrase? name (position + 1) (!isWord character) rest

/-- Where the first verb with the name of a method stands in a title: its start and its end,
counted in characters. -/
def verbSpan? (name title : String) : Option (Nat × Nat) :=
  findVerbPhrase? name.toList 0 true title.toList

end SpecAudit.Spec

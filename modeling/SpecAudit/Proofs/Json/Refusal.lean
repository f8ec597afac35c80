import SpecAudit.Config.File
import SpecAudit.Proofs.Attempt

/-!
# Why a text is refused

A text is refused because it does not follow the grammar, or because an integer
in it has more digits than are read.  As a configuration that does not follow
the grammar counts as empty, only an integer keeps one from being loaded.
-/

namespace SpecAudit.Json

/-- Whether an integer that is said to be too long has more digits than are
read. -/
def ReadError.IsRight : ReadError → Prop
  | .malformed => True
  | .integerTooLong digits => maxDigits < digits

abbrev RefusesRightly {α : Type} (step : Except ReadError α) : Prop :=
  OnlyFails ReadError.IsRight step

theorem refusesRightly_readText (characters : List Char) :
    RefusesRightly (readText characters) := by
  unfold readText
  split
  · exact .ok _
  · exact .error trivial

theorem refusesRightly_readNumber (negative : Bool) (characters : List Char) :
    RefusesRightly (readNumber negative characters) := by
  unfold readNumber
  split
  · exact .error trivial
  · split
    · split
      · exact .error ‹_›
      · exact .ok _
    · exact .ok _

theorem refusesRightly_readPlain (characters : List Char) :
    RefusesRightly (readPlain characters) := by
  unfold readPlain
  split
  · exact .ok _
  · exact .ok _
  · exact .ok _
  · exact .ok _
  · exact .ok _
  · exact .ok _
  · exact refusesRightly_readNumber true _
  · exact refusesRightly_readNumber false _

mutual

theorem refusesRightly_readValue : (fuel : Nat) → (characters : List Char) →
    RefusesRightly (readValue fuel characters)
  | 0, _ => by
      rw [readValue]
      exact .error trivial
  | fuel + 1, characters => by
      rw [readValue.eq_def]
      dsimp only
      split
      · exact (refusesRightly_readText _).bind fun _ => .ok _
      · split
        · exact .ok _
        · exact (refusesRightly_readItems fuel _).bind fun _ => .ok _
      · split
        · exact .ok _
        · exact (refusesRightly_readFields fuel [] _).bind fun _ => .ok _
      · exact refusesRightly_readPlain _

theorem refusesRightly_readItems : (fuel : Nat) → (characters : List Char) →
    RefusesRightly (readItems fuel characters)
  | 0, _ => by
      rw [readItems]
      exact .error trivial
  | fuel + 1, characters => by
      rw [readItems]
      refine (refusesRightly_readValue fuel _).bind fun ⟨item, rest⟩ => ?_
      dsimp only
      split
      · exact .ok _
      · exact (refusesRightly_readItems fuel _).bind fun _ => .ok _
      · exact .error trivial

theorem refusesRightly_readFields : (fuel : Nat) → (known : Fields) →
    (characters : List Char) → RefusesRightly (readFields fuel known characters)
  | 0, _, _ => by
      rw [readFields]
      exact .error trivial
  | fuel + 1, known, characters => by
      rw [readFields.eq_def]
      dsimp only
      split
      · refine (refusesRightly_readText _).bind fun ⟨key, rest⟩ => ?_
        dsimp only
        split
        · refine (refusesRightly_readValue fuel _).bind fun ⟨value, rest⟩ => ?_
          dsimp only
          split
          · exact .ok _
          · exact refusesRightly_readFields fuel _ _
          · exact .error trivial
        · exact .error trivial
      · exact .error trivial

end

theorem refusesRightly_read (text : String) : RefusesRightly (read text) := by
  refine (refusesRightly_readValue _ _).bind fun ⟨value, rest⟩ => ?_
  dsimp only
  split
  · exact .ok _
  · exact .error trivial

end SpecAudit.Json

namespace SpecAudit.Config

/-- Only an integer that is too long keeps a configuration from being loaded. -/
theorem exists_long_of_load {content? : Option ByteArray}
    {fault : Json.ReadError} (failed : load content? = .error fault) :
    ∃ digits, fault = .integerTooLong digits ∧ Json.maxDigits < digits := by
  have refused {content : ByteArray} (failed : fieldsOf content = .error fault) :
      fault ≠ .malformed ∧ fault.IsRight := by
    unfold fieldsOf at failed
    split at failed
    · cases failed
    · split at failed
      · cases failed
      · cases failed
      · cases failed
      · rename_i other wrong read
        cases failed
        exact ⟨wrong, Json.refusesRightly_read _ _ read⟩
  unfold load at failed
  split at failed
  · cases failed
  · rename_i content
    cases found : fieldsOf content with
    | ok fields =>
        rw [found] at failed
        cases failed
    | error own =>
        rw [found] at failed
        cases failed
        rcases refused found with ⟨notMalformed, right⟩
        cases fault with
        | malformed => exact absurd rfl notMalformed
        | integerTooLong digits => exact ⟨digits, rfl, right⟩

end SpecAudit.Config

import SpecAudit.Config.Settings
import SpecAudit.Proofs.Attempt
import SpecAudit.Proofs.Config.Listed

/-!
# Lists of texts as settings

Entries that are texts can be used wherever the settings need them: a text is
among the names of a list exactly if it is in the list, and whether one of the
texts is the start of a name can be told for every name.  An entry that is no
text shows only when the texts before it have been tried in vain.
-/

namespace SpecAudit.Config

/-- Among distinct entries are the same texts as before. -/
theorem str_mem_distinctEntries (text : String) (entries : List Json) :
    .str text ∈ distinctEntries entries ↔ .str text ∈ entries := by
  have counts (entry : Json) : countsAs entry = .str text ↔ entry = .str text := by
    cases entry with
    | bool value => cases value <;> simp [countsAs]
    | real value => cases whole : value.integer? <;> simp [countsAs, whole]
    | _ => simp [countsAs]
  have added (kept : List Json) :
      .str text ∈ entries.foldl
          (fun kept entry =>
            if kept.any (countsAs · == countsAs entry) then kept
            else kept ++ [entry]) kept ↔
        .str text ∈ kept ∨ .str text ∈ entries := by
    induction entries generalizing kept with
    | nil => simp
    | cons first rest induction =>
        rw [List.foldl_cons, induction, List.mem_cons, ← or_assoc]
        refine or_congr_left ?_
        split
        · rename_i among
          refine ⟨.inl, fun member => member.elim id fun same => ?_⟩
          rcases List.any_eq_true.mp among with ⟨other, listed, equal⟩
          rw [← same, beq_iff_eq, countsAs.eq_def (.str text)] at equal
          exact (counts other).mp equal ▸ listed
        · simp
  rw [distinctEntries, added]
  simp

/-- The names that a list of texts lists are these texts. -/
theorem exists_namesOf_texts (items : List String) :
    ∃ entries, namesOf (.texts items) = .ok entries ∧
      ∀ item, entries.any (· == .str item) = items.contains item := by
  have plain : (items.map Json.str).all isPlain = true := by
    simp [isPlain]
  refine ⟨distinctEntries (items.map .str), ?_, fun item => ?_⟩
  · rw [namesOf, Json.texts]
    exact if_pos plain
  · rw [← any_map_str_eq_contains, Bool.eq_iff_iff, List.any_beq', List.any_beq',
      List.contains_iff_mem, List.contains_iff_mem, str_mem_distinctEntries]

/-! ## Texts tried in order -/

/-- Whether no text before the first entry that is no text fits. -/
def MeetsNonText (fits : String → Bool) (entries : List Json) : Prop :=
  ∃ before entry after, entries = before ++ entry :: after ∧
    (∀ earlier ∈ before, ∃ text, earlier = .str text ∧ fits text = false) ∧
    entry.text? = none

/-- Whether a text fits, which cannot be told of an entry that is no text. -/
def askText (fault : SettingsFault) (fits : String → Bool) :
    Json → Except SettingsFault Bool
  | .str text => .ok (fits text)
  | _ => .error fault

section Texts

variable {fault : SettingsFault} {fits : String → Bool} {entries : List Json}

theorem askText_eq_false_iff (entry : Json) :
    askText fault fits entry = .ok false ↔
      ∃ text, entry = .str text ∧ fits text = false := by
  cases entry <;> simp [askText]

theorem fails_askText_iff (entry : Json) :
    Fails (askText fault fits entry) ↔ entry.text? = none := by
  cases entry <;> simp [askText, Json.text?]

theorem fails_anyAnswers_askText_iff :
    Fails (anyAnswers (askText fault fits) entries) ↔
      MeetsNonText fits entries := by
  rw [fails_anyAnswers_iff]
  simp only [FailsFirst, MeetsNonText, askText_eq_false_iff, fails_askText_iff]

theorem MeetsNonText.exists_nonText (meets : MeetsNonText fits entries) :
    ∃ entry ∈ entries, entry.text? = none := by
  rcases meets with ⟨before, entry, after, rfl, -, nonText⟩
  exact ⟨entry, by simp, nonText⟩

end Texts

namespace Settings

variable {settings : Settings}

theorem enables_iff (cop : String) :
    settings.enables cop = true ↔ .str cop ∉ settings.disabledCops := by
  rw [enables, Bool.not_eq_true', Bool.eq_false_iff, ne_eq, List.any_eq_true]
  simp

theorem anyStarts_map_str (name : String) (starts : List String) :
    anyStarts name (starts.map .str) =
      .ok (starts.any fun start => start.toList.isPrefixOf name.toList) := by
  induction starts with
  | nil => rfl
  | cons start starts induction =>
      rw [List.map_cons, anyStarts, induction, List.any_cons]
      cases start.toList.isPrefixOf name.toList <;> rfl

theorem anyCovers_eq_anyAnswers (path : String) (entries : List Json) :
    anyCovers path entries =
      anyAnswers (askText .directoryNotText (Path.isUnder · path)) entries := by
  induction entries with
  | nil => rfl
  | cons entry rest induction =>
      cases entry with
      | str directory =>
          rw [anyCovers, anyAnswers, induction]
          dsimp only [askText]
          cases Path.isUnder directory path <;> rfl
      | _ => rfl

theorem anyStarts_eq_anyAnswers (name : String) (entries : List Json) :
    anyStarts name entries =
      anyAnswers (askText .startNotText fun start =>
        start.toList.isPrefixOf name.toList) entries := by
  induction entries with
  | nil => rfl
  | cons entry rest induction =>
      cases entry with
      | str start =>
          rw [anyStarts, anyAnswers, induction]
          dsimp only [askText]
          cases start.toList.isPrefixOf name.toList <;> rfl
      | _ => rfl

/-- Whether a file is covered cannot be told if a directory that is no text
comes before one that covers it. -/
theorem fails_covers_iff {path : String} :
    Fails (settings.covers path) ↔
      MeetsNonText (Path.isUnder · path) settings.coveredDirectories := by
  rw [covers, anyCovers_eq_anyAnswers, fails_anyAnswers_askText_iff]

/-- Whether a name is left out cannot be told if it is not one of the names
that are, and a start that is no text comes before one that it has. -/
theorem fails_excludesMethod_iff {name : String} :
    Fails (settings.excludesMethod name) ↔
      .str name ∉ settings.excludedMethods ∧
        MeetsNonText (fun start => start.toList.isPrefixOf name.toList)
          settings.excludedStarts := by
  unfold excludesMethod
  rw [List.any_beq']
  split
  · rename_i among
    simp only [List.contains_iff_mem] at among
    simp [among]
  · rename_i apart
    simp only [List.contains_iff_mem] at apart
    rw [anyStarts_eq_anyAnswers, fails_anyAnswers_askText_iff]
    simp [apart]

end Settings

end SpecAudit.Config

import Mathlib.Data.List.Nodup
import SpecAudit.Proofs.Attempt
import SpecAudit.Proofs.Json.RoundTrip

/-!
# What is read can be written

A value that is read from a text is one that a text can hold: its integers are
as short as what they were read from, and the names in an object can be told
apart because a name that stands twice is put once.
-/

namespace SpecAudit.Json

/-! ## Fields that are put -/

section Put

variable {fields : Fields} {key : String} {value : Json}

theorem mem_keys_put {name : String}
    (member : name ∈ (fields.put key value).keys) :
    name = key ∨ name ∈ fields.keys := by
  induction fields with
  | nil =>
      rcases List.mem_singleton.mp member with rfl
      exact .inl rfl
  | cons field fields induction =>
      rcases field with ⟨first, old⟩
      rw [Fields.put] at member
      split at member
      · exact .inr member
      · rcases List.mem_cons.mp member with rfl | member
        · exact .inr List.mem_cons_self
        · rcases induction member with same | among
          · exact .inl same
          · exact .inr (List.mem_cons_of_mem _ among)

theorem nodup_keys_put (distinct : fields.keys.Nodup) :
    (fields.put key value).keys.Nodup := by
  induction fields with
  | nil => exact List.nodup_singleton key
  | cons field fields induction =>
      rcases field with ⟨first, old⟩
      rw [Fields.put]
      split
      · exact distinct
      · rename_i other
        rcases List.nodup_cons.mp distinct with ⟨fresh, distinct⟩
        refine List.nodup_cons.mpr ⟨?_, induction distinct⟩
        intro member
        rcases mem_keys_put member with rfl | among
        · exact other (beq_self_eq_true first)
        · exact fresh among

theorem mem_put {field : String × Json} (member : field ∈ fields.put key value) :
    field = (key, value) ∨ field ∈ fields := by
  induction fields with
  | nil =>
      rcases List.mem_singleton.mp member with rfl
      exact .inl rfl
  | cons first fields induction =>
      rcases first with ⟨first, old⟩
      rw [Fields.put] at member
      split at member
      · rename_i same
        rw [beq_iff_eq.mp same] at member
        rcases List.mem_cons.mp member with rfl | member
        · exact .inl rfl
        · exact .inr (List.mem_cons_of_mem _ member)
      · rcases List.mem_cons.mp member with rfl | member
        · exact .inr List.mem_cons_self
        · rcases induction member with same | among
          · exact .inl same
          · exact .inr (List.mem_cons_of_mem _ among)

/-- An object that a text can hold stays so when such a value is put. -/
theorem Readable.put (key : String) (readable : (Json.obj fields).Readable)
    (inner : value.Readable) : (Json.obj (fields.put key value)).Readable := by
  cases readable with
  | obj _ distinct readable =>
      constructor
      · exact nodup_keys_put distinct
      · intro field member
        rcases mem_put member with same | among
        · rw [same]
          exact inner
        · exact readable field among

end Put

/-! ## Values that are read -/

section Read

variable {characters rest : List Char}

theorem readable_of_readNumber {negative : Bool} {value : Json}
    (read : readNumber negative characters = .ok (value, rest)) :
    value.Readable := by
  cases value with
  | int value => exact .int value (length_toDigits_of_readNumber read)
  | real value => exact .real value
  | _ =>
      unfold readNumber at read
      repeat' split at read
      all_goals cases read

theorem readable_of_readPlain {value : Json}
    (read : readPlain characters = .ok (value, rest)) : value.Readable := by
  unfold readPlain at read
  split at read
  · cases read
    exact .null
  · cases read
    exact .bool true
  · cases read
    exact .bool false
  · cases read
    exact .real _
  · cases read
    exact .real _
  · cases read
    exact .real _
  · exact readable_of_readNumber read
  · exact readable_of_readNumber read

mutual

/-- A value that is read is one that a text can hold. -/
theorem readable_of_readValue : (fuel : Nat) → {characters rest : List Char} →
    {value : Json} → readValue fuel characters = .ok (value, rest) →
    value.Readable
  | 0, _, _, _, read => by cases read
  | fuel + 1, _, _, _, read => by
      rw [readValue.eq_def] at read
      dsimp only at read
      split at read
      · rcases exists_of_bind_eq_ok read with ⟨⟨text, rest⟩, -, made⟩
        cases made
        exact .str text
      · split at read
        · cases read
          exact .arr [] (by simp)
        · rcases exists_of_bind_eq_ok read with ⟨⟨items, rest⟩, inner, made⟩
          cases made
          exact .arr items (readable_of_readItems fuel inner)
      · split at read
        · cases read
          exact .obj [] List.nodup_nil (by simp)
        · rcases exists_of_bind_eq_ok read with ⟨⟨fields, rest⟩, inner, made⟩
          cases made
          exact readable_of_readFields fuel
            (.obj [] List.nodup_nil (by simp)) inner
      · exact readable_of_readPlain read

theorem readable_of_readItems : (fuel : Nat) → {characters rest : List Char} →
    {items : List Json} → readItems fuel characters = .ok (items, rest) →
    ∀ item ∈ items, item.Readable
  | 0, _, _, _, read => by cases read
  | fuel + 1, _, _, _, read => by
      rw [readItems] at read
      rcases exists_of_bind_eq_ok read with ⟨⟨item, rest⟩, first, others⟩
      have readable := readable_of_readValue fuel first
      dsimp only at others
      split at others
      · cases others
        simpa using readable
      · rcases exists_of_bind_eq_ok others with ⟨⟨items, rest⟩, more, made⟩
        cases made
        exact List.forall_mem_cons.mpr
          ⟨readable, readable_of_readItems fuel more⟩
      · cases others

theorem readable_of_readFields : (fuel : Nat) → {known fields : Fields} →
    {characters rest : List Char} → (Json.obj known).Readable →
    readFields fuel known characters = .ok (fields, rest) →
    (Json.obj fields).Readable
  | 0, _, _, _, _, _, read => by cases read
  | fuel + 1, _, _, _, _, before, read => by
      rw [readFields.eq_def] at read
      dsimp only at read
      split at read
      · rcases exists_of_bind_eq_ok read with ⟨⟨key, rest⟩, -, read⟩
        dsimp only at read
        split at read
        · rcases exists_of_bind_eq_ok read with ⟨⟨value, rest⟩, inner, read⟩
          have put := before.put key (readable_of_readValue fuel inner)
          dsimp only at read
          split at read
          · cases read
            exact put
          · exact readable_of_readFields fuel put read
          · cases read
        · cases read
      · cases read

end

/-- A value that a text holds is one that a text can hold. -/
theorem readable_of_read {text : String} {value : Json}
    (read : Json.read text = .ok value) : value.Readable := by
  rcases exists_of_bind_eq_ok read with ⟨⟨found, rest⟩, inner, made⟩
  dsimp only at made
  split at made
  · cases made
    exact readable_of_readValue _ inner
  · cases made

end Read

end SpecAudit.Json

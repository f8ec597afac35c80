import SpecAudit.Proofs.Json.Reading

/-!
# Named values

Where no name stands twice among named values, a name has the value that it
stands with.  Putting a value changes it in place where the name is there, and
appends the name with its value where it is not.
-/

namespace SpecAudit.Fields

variable {fields : Fields} {name : String} {value : Json}

theorem mem_keys_iff_has : name ∈ fields.keys ↔ fields.has name = true := by
  induction fields with
  | nil => simp [keys, has, get?]
  | cons field fields induction =>
      rcases field with ⟨first, old⟩
      rw [keys, List.map_cons, List.mem_cons, has, get?]
      split
      · rename_i same
        simp [beq_iff_eq.mp same]
      · rename_i other
        have different : first ≠ name := by simpa using other
        rw [or_iff_right different.symm]
        exact induction

theorem get?_eq_none_iff : fields.get? name = none ↔ name ∉ fields.keys := by
  rw [mem_keys_iff_has, has, Bool.not_eq_true, Option.isSome_eq_false_iff,
    Option.isNone_iff_eq_none]

theorem mem_of_get?_eq_some (found : fields.get? name = some value) :
    (name, value) ∈ fields := by
  induction fields with
  | nil => cases found
  | cons field fields induction =>
      rcases field with ⟨first, old⟩
      rw [get?] at found
      split at found
      · rename_i same
        cases found
        rw [beq_iff_eq.mp same]
        exact List.mem_cons_self
      · exact List.mem_cons_of_mem _ (induction found)

theorem get?_eq_some_of_mem (distinct : fields.keys.Nodup)
    (member : (name, value) ∈ fields) : fields.get? name = some value := by
  induction fields with
  | nil => cases member
  | cons field fields induction =>
      rcases field with ⟨first, old⟩
      rcases List.nodup_cons.mp distinct with ⟨fresh, distinct⟩
      rw [get?]
      split
      · rename_i same
        rw [beq_iff_eq] at same
        rcases List.mem_cons.mp member with here | later
        · rw [(Prod.mk.inj here).2]
        · rw [same] at fresh
          exact absurd (List.mem_map_of_mem (f := Prod.fst) later) fresh
      · rename_i other
        rcases List.mem_cons.mp member with here | later
        · rw [(Prod.mk.inj here).1, beq_self_eq_true] at other
          exact absurd rfl other
        · exact induction distinct later

/-- A name that is there takes another value in its place. -/
theorem put_of_mem (distinct : fields.keys.Nodup) (member : name ∈ fields.keys)
    (value : Json) :
    fields.put name value =
      fields.map fun field =>
        (field.1, if field.1 = name then value else field.2) := by
  induction fields with
  | nil => cases member
  | cons field fields induction =>
      rcases field with ⟨first, old⟩
      rcases List.nodup_cons.mp distinct with ⟨fresh, distinct⟩
      rw [put, List.map_cons]
      by_cases same : first = name
      · subst same
        rw [if_pos (beq_self_eq_true first), if_pos rfl]
        have kept : fields.map (fun field =>
            (field.1, if field.1 = first then value else field.2)) =
              fields := by
          refine (List.map_congr_left fun field listed => ?_).trans
            (List.map_id fields)
          have other : field.1 ≠ first := fun same =>
            fresh (List.mem_map.mpr ⟨field, listed, same⟩)
          rw [if_neg other]
          rfl
        rw [kept]
      · rw [if_neg (by simpa using same), if_neg same]
        have later : name ∈ keys fields :=
          (List.mem_cons.mp member).resolve_left (Ne.symm same)
        rw [induction distinct later]

/-! ## Putting once more -/

/-- Putting the value that a name has changes nothing. -/
theorem put_of_get?_eq_some (found : fields.get? name = some value) :
    fields.put name value = fields := by
  induction fields with
  | nil => cases found
  | cons field fields induction =>
      rcases field with ⟨first, old⟩
      rw [get?] at found
      rw [put]
      split
      · rename_i same
        rw [if_pos same] at found
        cases found
        rw [beq_iff_eq.mp same]
      · rename_i other
        rw [if_neg other] at found
        rw [induction found]

/-- Of two values that are put under a name, the later one stays. -/
theorem put_put (fields : Fields) (name : String) (value later : Json) :
    (fields.put name value).put name later = fields.put name later := by
  induction fields with
  | nil => simp [put]
  | cons field fields induction =>
      rcases field with ⟨first, old⟩
      by_cases same : first = name
      · simp [put, same]
      · simp [put, same, induction]

/-- Putting a value leaves what stands under other names, in its order. -/
theorem filter_put (fields : Fields) (name : String) (value : Json) :
    (fields.put name value).filter (·.1 != name) =
      fields.filter (·.1 != name) := by
  induction fields with
  | nil => simp [put]
  | cons field fields induction =>
      rcases field with ⟨first, old⟩
      rw [put]
      split
      · rename_i same
        simp [beq_iff_eq.mp same]
      · rw [List.filter_cons, List.filter_cons, induction]

/-- A name that is not there comes after all others. -/
theorem put_of_get?_eq_none (absent : fields.get? name = none) :
    fields.put name value = fields ++ [(name, value)] := by
  induction fields with
  | nil => rfl
  | cons field fields induction =>
      rcases field with ⟨first, old⟩
      rw [get?] at absent
      rw [put]
      split
      · rename_i same
        rw [if_pos same] at absent
        cases absent
      · rename_i other
        rw [if_neg other] at absent
        rw [induction absent, List.cons_append]

end SpecAudit.Fields

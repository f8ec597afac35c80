import SpecAudit.Proofs.Json.Number
import SpecAudit.Proofs.Json.Text

/-!
# Reading a written value

A value is written and read back as itself, in every layout that sets its parts
apart by blanks only.  This holds of values that a text can hold: no integer
has more digits than are read, and no name stands twice in an object.  The
reader is given as many steps as the written text has characters, and these are
enough.
-/

namespace SpecAudit.Json

/-- Whether a text can hold a value: its integers are not too long, and the
names in its objects can be told apart. -/
inductive Readable : Json → Prop
  | null : Readable .null
  | bool (value : Bool) : Readable (.bool value)
  | int (value : Int)
      (short : (Nat.toDigits 10 value.natAbs).length ≤ maxDigits) :
      Readable (.int value)
  | real (value : Double) : Readable (.real value)
  | str (text : String) : Readable (.str text)
  | arr (items : List Json) (inner : ∀ item ∈ items, item.Readable) :
      Readable (.arr items)
  | obj (fields : Fields) (distinct : fields.keys.Nodup)
      (inner : ∀ field ∈ fields, field.2.Readable) : Readable (.obj fields)

/-- Whether a layout sets the parts of a value apart by blanks only. -/
structure Layout.IsBlank (layout : Layout) : Prop where
  edge : ∀ level, ∀ character ∈ layout.edge level, isSpace character = true
  gap : ∀ level, ∀ character ∈ layout.gap level, isSpace character = true

theorem isBlank_indented : Layout.indented.IsBlank := by
  have blank (level : Nat) :
      ∀ character ∈ newLine level, isSpace character = true := by
    intro character member
    rcases List.mem_cons.mp member with rfl | member
    · rfl
    · rw [List.eq_of_mem_replicate member]
      rfl
  exact ⟨blank, blank⟩

/-! ## Blanks and digits -/

section Blanks

variable {blanks rest : List Char} {character digit : Char}

theorem skipSpace_append
    (blank : ∀ character ∈ blanks, isSpace character = true) :
    skipSpace (blanks ++ rest) = skipSpace rest :=
  List.dropWhile_append_of_pos blank

theorem skipSpace_cons (solid : isSpace character = false) :
    skipSpace (character :: rest) = character :: rest :=
  List.dropWhile_cons_of_neg (by simp [solid])

theorem isNumeric_eq_false_of_isSpace (blank : isSpace character = true) :
    isNumeric character = false := by
  simp only [isSpace, Bool.or_eq_true, beq_iff_eq] at blank
  rcases blank with ((rfl | rfl) | rfl) | rfl <;> rfl

theorem endsNumber_append
    (blank : ∀ character ∈ blanks, isSpace character = true)
    (ends : EndsNumber rest) : EndsNumber (blanks ++ rest) := by
  cases blanks with
  | nil => exact ends
  | cons first blanks =>
      exact stops_cons
        (isNumeric_eq_false_of_isSpace (blank first List.mem_cons_self)) _

end Blanks

/-! ## Values without inner ones -/

section Plain

variable {first other : Char} {others rest : List Char}

theorem ne_of_startsNumber (starts : startsNumber first = true)
    (apart : startsNumber other = false) : first ≠ other := by
  rintro rfl
  rw [starts] at apart
  contradiction

theorem not_isSpace_of_startsNumber (starts : startsNumber first = true) :
    isSpace first = false := by
  have different {other : Char} (apart : startsNumber other = false) :
      (first == other) = false := by
    simpa using ne_of_startsNumber starts apart
  rw [isSpace, different rfl, different rfl, different rfl, different rfl]
  rfl

/-- What starts like a number is read as a value without inner ones. -/
theorem readValue_eq_readPlain (starts : startsNumber first = true)
    (fuel : Nat) (others : List Char) :
    readValue (fuel + 1) (first :: others) = readPlain (first :: others) := by
  have apart (other : Char) (notStart : startsNumber other = false)
      (tail : List Char) : first :: others ≠ other :: tail := fun same =>
    ne_of_startsNumber starts notStart (List.head_eq_of_cons_eq same)
  rw [readValue]
  · exact fun tail same => apart _ rfl tail same
  · exact fun tail same => apart _ rfl tail same
  · exact fun tail same => apart _ rfl tail same

theorem readValue_writtenInt {fuel : Nat} {value : Int}
    (ends : EndsNumber rest)
    (short : (Nat.toDigits 10 value.natAbs).length ≤ maxDigits) :
    readValue (fuel + 1) (writtenInt value ++ rest) =
      .ok (.int value, rest) := by
  have read := (isReadAs_writtenInt short).readPlain_append ends
  rcases exists_writtenInt_cons value with ⟨first, others, written, starts⟩
  rw [written, List.cons_append] at read ⊢
  rw [readValue_eq_readPlain starts, read]

theorem readValue_writtenDouble {fuel : Nat} (value : Double)
    (ends : EndsNumber rest) :
    readValue (fuel + 1) (writtenDouble value ++ rest) =
      .ok (.real value, rest) := by
  have read := readPlain_writtenDouble value ends
  rcases exists_writtenDouble_cons value with ⟨first, others, written, starts⟩
  rw [written, List.cons_append] at read ⊢
  rw [readValue_eq_readPlain starts, read]

end Plain

/-! ## Lists and objects -/

/-- A written value starts with no blank and with no closing bracket. -/
theorem exists_written_cons (layout : Layout) (level : Nat) (value : Json) :
    ∃ first others, written layout level value = first :: others ∧
      isSpace first = false ∧ first ≠ ']' := by
  cases value with
  | null => exact ⟨_, _, rfl, by decide, by decide⟩
  | bool value => cases value <;> exact ⟨_, _, rfl, by decide, by decide⟩
  | str text => exact ⟨_, _, rfl, by decide, by decide⟩
  | int value =>
      rcases exists_writtenInt_cons value with ⟨first, others, digits, starts⟩
      exact ⟨first, others, digits, not_isSpace_of_startsNumber starts,
        ne_of_startsNumber starts rfl⟩
  | real value =>
      rcases exists_writtenDouble_cons value with
        ⟨first, others, digits, starts⟩
      exact ⟨first, others, digits, not_isSpace_of_startsNumber starts,
        ne_of_startsNumber starts rfl⟩
  | arr items =>
      cases items <;> exact ⟨_, _, rfl, by decide, by decide⟩
  | obj fields =>
      rcases fields with _ | ⟨⟨key, value⟩, fields⟩ <;>
        exact ⟨_, _, rfl, by decide, by decide⟩

/-- Whether a value is read back wherever it is written, with what follows it,
in as many steps as the written value has characters. -/
def ReadsBack (layout : Layout) (value : Json) : Prop :=
  ∀ level fuel rest, EndsNumber rest →
    (written layout level value).length ≤ fuel →
    readValue fuel (written layout level value ++ rest) = .ok (value, rest)

/-! ### Steps of the reader -/

section Steps

variable {fuel : Nat} {characters rest rest' rest'' : List Char}

theorem readItems_last {item : Json}
    (read : readValue fuel characters = .ok (item, rest))
    (closed : skipSpace rest = ']' :: rest') :
    readItems (fuel + 1) characters = .ok ([item], rest') := by
  simp only [readItems, read, closed, bind, Except.bind]
  rfl

theorem readItems_more {item : Json} {items : List Json}
    (read : readValue fuel characters = .ok (item, rest))
    (comma : skipSpace rest = ',' :: rest')
    (more : readItems fuel (skipSpace rest') = .ok (items, rest'')) :
    readItems (fuel + 1) characters = .ok (item :: items, rest'') := by
  simp only [readItems, read, comma, more, bind, Except.bind]
  rfl

theorem readValue_list {items : List Json}
    (open' : ∀ rest', skipSpace rest ≠ ']' :: rest')
    (read : readItems fuel (skipSpace rest) = .ok (items, rest')) :
    readValue (fuel + 1) ('[' :: rest) = .ok (.arr items, rest') := by
  rw [readValue]
  split
  · exact absurd ‹_› (open' _)
  · rw [read]
    rfl

variable {fields : Fields} {key : String} {value : Json}

theorem readValue_object
    (open' : ∀ rest', skipSpace rest ≠ '\x7d' :: rest')
    (read : readFields fuel [] (skipSpace rest) = .ok (fields, rest')) :
    readValue (fuel + 1) ('\x7b' :: rest) = .ok (.obj fields, rest') := by
  rw [readValue]
  split
  · exact absurd ‹_› (open' _)
  · rw [read]
    rfl

theorem readFields_last
    (read : readText characters = .ok (key, ':' :: rest))
    (inner : readValue fuel (skipSpace rest) = .ok (value, rest'))
    (closed : skipSpace rest' = '\x7d' :: rest'') :
    readFields (fuel + 1) fields ('"' :: characters) =
      .ok (fields.put key value, rest'') := by
  have colon : skipSpace (':' :: rest) = ':' :: rest := skipSpace_cons rfl
  simp only [readFields, read, colon, inner, closed, bind, Except.bind]
  rfl

theorem readFields_more
    (read : readText characters = .ok (key, ':' :: rest))
    (inner : readValue fuel (skipSpace rest) = .ok (value, rest'))
    (comma : skipSpace rest' = ',' :: rest'') {all : Fields}
    {remaining : List Char}
    (more : readFields fuel (fields.put key value) (skipSpace rest'') =
      .ok (all, remaining)) :
    readFields (fuel + 1) fields ('"' :: characters) = .ok (all, remaining) := by
  have colon : skipSpace (':' :: rest) = ':' :: rest := skipSpace_cons rfl
  simp only [readFields, read, colon, inner, comma, bind, Except.bind]
  exact more

end Steps

section Nested

variable {layout : Layout} {level : Nat} {close rest : List Char}

theorem writtenItems_cons (item : Json) (items : List Json) :
    writtenItems layout level (item :: items) ++ rest =
      ',' :: (layout.gap level ++ (written layout level item
        ++ (writtenItems layout level items ++ rest))) := by
  simp [writtenItems]

theorem writtenText_append (text : String) :
    writtenText text ++ rest =
      '"' :: (text.toList.flatMap writtenCharacter ++ '"' :: rest) := by
  simp [writtenText]

/-- A field as it is written, and what follows it. -/
def fieldBefore (layout : Layout) (level : Nat) (field : String × Json)
    (rest : List Char) : List Char :=
  '"' :: (field.1.toList.flatMap writtenCharacter
    ++ '"' :: ':' :: ' ' :: (written layout level field.2 ++ rest))

theorem writtenFields_cons (field : String × Json) (fields : Fields) :
    writtenFields layout level (field :: fields) ++ rest =
      ',' :: (layout.gap level ++ fieldBefore layout level field
        (writtenFields layout level fields ++ rest)) := by
  simp [writtenFields, fieldBefore, writtenText]

theorem skipSpace_written (value : Json) :
    skipSpace (written layout level value ++ rest) =
      written layout level value ++ rest := by
  rcases exists_written_cons layout level value with
    ⟨first, others, start, solid, -⟩
  rw [start, List.cons_append, skipSpace_cons solid]

theorem skipSpace_space_written (value : Json) :
    skipSpace (' ' :: (written layout level value ++ rest)) =
      written layout level value ++ rest :=
  skipSpace_written value

theorem length_written_pos (value : Json) :
    0 < (written layout level value).length := by
  rcases exists_written_cons layout level value with ⟨first, others, start, -⟩
  rw [start]
  exact Nat.succ_pos _

theorem put_of_not_mem {fields : Fields} {key : String}
    (fresh : key ∉ fields.keys) (value : Json) :
    fields.put key value = fields ++ [(key, value)] := by
  induction fields with
  | nil => rfl
  | cons field fields induction =>
      rcases field with ⟨name, old⟩
      rw [Fields.keys, List.map_cons, List.mem_cons, not_or] at fresh
      have other : (name == key) = false := by simpa using Ne.symm fresh.1
      rw [Fields.put, other, induction fresh.2]
      rfl

theorem not_mem_keys {known others : Fields} {field : String × Json}
    (distinct : (known ++ field :: others : Fields).keys.Nodup) :
    field.1 ∉ known.keys := by
  rw [Fields.keys, List.map_append, List.map_cons] at distinct
  intro member
  have apart := (List.nodup_append.mp distinct).2.2
  exact apart _ member _ List.mem_cons_self rfl

variable (blankLayout : layout.IsBlank)
variable (blank : ∀ character ∈ close, isSpace character = true)

include blankLayout blank

theorem readItems_written {first : Json} {others : List Json}
    (each : ∀ item ∈ first :: others, ReadsBack layout item) {fuel : Nat}
    (enough : (written layout level first).length
      + (writtenItems layout level others).length < fuel) :
    readItems fuel (written layout level first
        ++ (writtenItems layout level others ++ (close ++ ']' :: rest))) =
      .ok (first :: others, rest) := by
  induction others generalizing first fuel with
  | nil =>
      obtain ⟨fuel, rfl⟩ : ∃ less, fuel = less + 1 := ⟨fuel - 1, by omega⟩
      have ends : EndsNumber (close ++ ']' :: rest) :=
        endsNumber_append blank (stops_cons rfl _)
      apply readItems_last
      · exact each first List.mem_cons_self level fuel _ ends (by omega)
      · rw [writtenItems, List.nil_append, skipSpace_append blank,
          skipSpace_cons rfl]
  | cons second others induction =>
      obtain ⟨fuel, rfl⟩ : ∃ less, fuel = less + 1 := ⟨fuel - 1, by omega⟩
      rcases List.forall_mem_cons.mp each with ⟨now, later⟩
      have some : 0 < (written layout level first).length :=
        length_written_pos first
      simp only [writtenItems, List.length_append, List.length_cons] at enough
      rw [writtenItems_cons]
      apply readItems_more
      · exact now level fuel _ (stops_cons rfl _) (by omega)
      · exact skipSpace_cons rfl
      · rw [skipSpace_append (blankLayout.gap level), skipSpace_written]
        exact induction later (by omega)

theorem readFields_written {first : String × Json} {others known : Fields}
    (each : ∀ field ∈ first :: others, ReadsBack layout field.2)
    (distinct : (known ++ first :: others : Fields).keys.Nodup) {fuel : Nat}
    (enough : (written layout level first.2).length
      + (writtenFields layout level others).length < fuel) :
    readFields fuel known (fieldBefore layout level first
        (writtenFields layout level others ++ (close ++ '\x7d' :: rest))) =
      .ok (known ++ first :: others, rest) := by
  induction others generalizing first known fuel with
  | nil =>
      obtain ⟨fuel, rfl⟩ : ∃ less, fuel = less + 1 := ⟨fuel - 1, by omega⟩
      have ends : EndsNumber (close ++ '\x7d' :: rest) :=
        endsNumber_append blank (stops_cons rfl _)
      rw [← put_of_not_mem (not_mem_keys distinct), writtenFields,
        List.nil_append]
      apply readFields_last (readText_written first.1)
      · rw [skipSpace_space_written]
        exact each first List.mem_cons_self level fuel _ ends (by omega)
      · rw [skipSpace_append blank, skipSpace_cons rfl]
  | cons second others induction =>
      obtain ⟨fuel, rfl⟩ : ∃ less, fuel = less + 1 := ⟨fuel - 1, by omega⟩
      rcases List.forall_mem_cons.mp each with ⟨now, later⟩
      have some : 0 < (written layout level first.2).length :=
        length_written_pos first.2
      simp only [writtenFields, List.length_append, List.length_cons] at enough
      have put := put_of_not_mem (not_mem_keys distinct) first.2
      have whole : known ++ first :: second :: others =
          known.put first.1 first.2 ++ second :: others := by
        rw [put, List.append_assoc, List.singleton_append]
      rw [whole] at distinct ⊢
      rw [writtenFields_cons]
      apply readFields_more (readText_written first.1)
      · rw [skipSpace_space_written]
        exact now level fuel _ (stops_cons rfl _) (by omega)
      · exact skipSpace_cons rfl
      · rw [skipSpace_append (blankLayout.gap level)]
        exact induction later distinct (by omega)

end Nested

/-- There is a step for the first character of a written value. -/
theorem readsBack_of_succ {layout : Layout} {value : Json}
    (read : ∀ level fuel rest, EndsNumber rest →
      (written layout level value).length ≤ fuel + 1 →
      readValue (fuel + 1) (written layout level value ++ rest) =
        .ok (value, rest)) :
    ReadsBack layout value := by
  intro level fuel rest ends enough
  have some : 0 < (written layout level value).length :=
    length_written_pos value
  obtain ⟨fuel, rfl⟩ : ∃ less, fuel = less + 1 := ⟨fuel - 1, by omega⟩
  exact read level fuel rest ends enough

section Collections

variable {layout : Layout} (blankLayout : layout.IsBlank)

include blankLayout

theorem readsBack_arr {items : List Json}
    (each : ∀ item ∈ items, ReadsBack layout item) :
    ReadsBack layout (.arr items) := by
  apply readsBack_of_succ
  intro level fuel rest _ enough
  cases items with
  | nil => rfl
  | cons first others =>
      have whole : written layout level (.arr (first :: others)) ++ rest =
          '[' :: (layout.edge (level + 1)
            ++ (written layout (level + 1) first
            ++ (writtenItems layout (level + 1) others
            ++ (layout.edge level ++ ']' :: rest)))) := by
        simp [written]
      rw [whole]
      apply readValue_list
      · intro rest' closed
        rw [skipSpace_append (blankLayout.edge _), skipSpace_written] at closed
        rcases exists_written_cons layout (level + 1) first with
          ⟨character, others, start, -, other⟩
        rw [start] at closed
        exact other (List.head_eq_of_cons_eq closed)
      · rw [skipSpace_append (blankLayout.edge _), skipSpace_written]
        apply readItems_written blankLayout (blankLayout.edge level) each
        simp only [written, List.length_append, List.length_cons] at enough
        omega

theorem readsBack_obj {fields : Fields} (distinct : fields.keys.Nodup)
    (each : ∀ field ∈ fields, ReadsBack layout field.2) :
    ReadsBack layout (.obj fields) := by
  apply readsBack_of_succ
  intro level fuel rest _ enough
  cases fields with
  | nil => rfl
  | cons first others =>
      have whole : written layout level (.obj (first :: others)) ++ rest =
          '\x7b' :: (layout.edge (level + 1)
            ++ fieldBefore layout (level + 1) first
              (writtenFields layout (level + 1) others
              ++ (layout.edge level ++ '\x7d' :: rest))) := by
        simp [written, writtenText, fieldBefore]
      rw [whole]
      have start (tail : List Char) :
          skipSpace (fieldBefore layout (level + 1) first tail) =
            fieldBefore layout (level + 1) first tail :=
        skipSpace_cons rfl
      apply readValue_object
      · intro rest' closed
        rw [skipSpace_append (blankLayout.edge _), start] at closed
        exact absurd (List.head_eq_of_cons_eq closed) (by decide)
      · rw [skipSpace_append (blankLayout.edge _), start]
        apply readFields_written blankLayout (blankLayout.edge level) each
          distinct
        simp only [written, List.length_append, List.length_cons] at enough
        omega

/-- A value that a text can hold is read back wherever it is written. -/
theorem Readable.readsBack {value : Json} (readable : value.Readable) :
    ReadsBack layout value := by
  induction readable with
  | null => exact readsBack_of_succ fun _ _ _ _ _ => rfl
  | bool value =>
      cases value <;> exact readsBack_of_succ fun _ _ _ _ _ => rfl
  | int value short =>
      apply readsBack_of_succ
      intro level fuel rest ends _
      exact readValue_writtenInt ends short
  | real value =>
      apply readsBack_of_succ
      intro level fuel rest ends _
      exact readValue_writtenDouble value ends
  | str text =>
      apply readsBack_of_succ
      intro level fuel rest _ _
      rw [written, writtenText_append, readValue, readText_written]
      rfl
  | arr items inner induction => exact readsBack_arr blankLayout induction
  | obj fields distinct inner induction =>
      exact readsBack_obj blankLayout distinct induction

end Collections

/-- A value that a text can hold is read from the text that it is written as. -/
theorem read_indented {value : Json} (readable : value.Readable) :
    read (value.indented ++ "\n") = .ok value := by
  have characters : (value.indented ++ "\n").toList =
      written .indented 0 value ++ ['\n'] := by
    simp [indented]
  have enough : (written .indented 0 value).length ≤
      2 * (written .indented 0 value ++ ['\n']).length + 2 := by
    simp only [List.length_append, List.length_singleton]
    omega
  have back := readable.readsBack isBlank_indented 0 _ ['\n']
    (stops_cons rfl _) enough
  simp only [read, characters, skipSpace_written, back, bind, Except.bind]
  rfl

end SpecAudit.Json

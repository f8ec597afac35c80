import SpecAudit.Command.Arguments
import SpecAudit.Proofs.Attempt

/-!
# Which operands a command line has

An operand of a level is filled by an argument that is one, and no argument
fills two.  So a level that takes as many operands as it has arguments can be
read only if every argument is an operand, and then it takes each as it is.  A
level at which a command is given first is read as the level of that command.
-/

namespace SpecAudit.Command

/-! ## What is left of the arguments -/

section Left

variable {interface : Interface} {reader : Reader}
variable {remaining after : Remaining} {parsed parsed' : Parsed}

/-- Whether an argument is an operand. -/
def isOperand : Item → Bool
  | (_, .operand) => true
  | _ => false

/-- Whether a place is one for an operand. -/
def Slot.IsOperand : Slot → Prop
  | .operand _ => True
  | .command _ => False

/-- The arguments that are operands. -/
def operandCount (items : List Item) : Nat :=
  items.countP isOperand

theorem operandCount_le_of_sublist {items others : List Item}
    (sublist : items.Sublist others) :
    operandCount items ≤ operandCount others :=
  sublist.countP_le

theorem operandCount_dropWhile_le (items : List Item) (test : Item → Bool) :
    operandCount (items.dropWhile test) ≤ operandCount items :=
  operandCount_le_of_sublist (List.dropWhile_sublist test)

/-- Every place that is filled takes an operand of its own. -/
theorem length_slots_of_takeOperands {slots : List Slot} {items : List Item}
    (operands : ∀ slot ∈ slots, slot.IsOperand)
    (taken : takeOperands interface reader slots items parsed =
      .ok (parsed', after)) :
    (∀ slot ∈ after.slots, slot.IsOperand) ∧
      slots.length + operandCount after.items ≤
        after.slots.length + operandCount items := by
  induction slots generalizing items parsed with
  | nil =>
      cases taken
      exact ⟨operands, Nat.le_refl _⟩
  | cons slot slots induction =>
      rcases List.forall_mem_cons.mp operands with ⟨first, others⟩
      unfold takeOperands at taken
      split at taken
      · rename_i operand rest name found
        rcases induction others taken with ⟨left, bound⟩
        have all := operandCount_dropWhile_le items isSeparator
        have more := operandCount_dropWhile_le rest isSeparator
        rw [found] at all
        have own : operandCount ((operand, .operand) :: rest) =
            operandCount rest + 1 :=
          List.countP_cons_of_pos rfl
        refine ⟨left, ?_⟩
        rw [List.length_cons]
        omega
      · exact absurd first id
      · cases taken
        exact ⟨operands, Nat.le_refl _⟩

theorem operandCount_of_takeOption {found : Found} {rest items : List Item}
    (taken : takeOption interface found rest parsed = .ok (parsed', items)) :
    operandCount items ≤ operandCount rest := by
  unfold takeOption at taken
  dsimp only at taken
  split at taken
  · cases taken
  · cases taken
  · cases taken
  · cases taken
    exact Nat.le_refl _
  · cases taken
  · rcases exists_of_bind_eq_ok taken with ⟨_, -, done⟩
    cases done
    exact Nat.le_refl _
  · split at taken
    · rcases exists_of_bind_eq_ok taken with ⟨_, -, done⟩
      cases done
      exact operandCount_le_of_sublist (List.sublist_cons_self _ _)
    · cases taken

/-- The places that are left are at least as many as there are without an
operand of their own. -/
theorem length_slots_of_takeItems {fuel : Nat} {slots : List Slot}
    {items : List Item} {unknown : List String}
    (operands : ∀ slot ∈ slots, slot.IsOperand)
    (taken : takeItems interface reader fuel ⟨slots, items, unknown⟩ parsed =
      .ok (parsed', after)) :
    (∀ slot ∈ after.slots, slot.IsOperand) ∧
      slots.length ≤ after.slots.length + operandCount items := by
  induction fuel generalizing slots items unknown parsed with
  | zero =>
      cases taken
      exact ⟨operands, Nat.le_add_right _ _⟩
  | succ fuel induction =>
      unfold takeItems at taken
      dsimp only at taken
      split at taken
      · rename_i argument found rest
        rcases exists_of_bind_eq_ok taken with ⟨⟨_, others⟩, option, taken⟩
        have less := operandCount_of_takeOption option
        have own := operandCount_le_of_sublist
          (List.sublist_cons_self (argument, ArgumentKind.known found) rest)
        dsimp only at taken
        rcases induction operands taken with ⟨left, bound⟩
        exact ⟨left, by omega⟩
      · rename_i argument rest
        have own := operandCount_le_of_sublist
          (List.sublist_cons_self (argument, ArgumentKind.unknown) rest)
        rcases induction operands taken with ⟨left, bound⟩
        exact ⟨left, by omega⟩
      · rcases exists_of_bind_eq_ok taken with ⟨⟨_, left⟩, filled, taken⟩
        rcases length_slots_of_takeOperands operands filled with ⟨now, bound⟩
        dsimp only at taken
        split at taken
        · rcases induction now taken with ⟨later, bound'⟩
          exact ⟨later, by omega⟩
        · have less := operandCount_dropWhile_le left.items (!isOption ·)
          split at taken
          · cases taken
            exact ⟨now, by dsimp only; omega⟩
          · rcases induction now taken with ⟨later, bound'⟩
            exact ⟨later, by omega⟩

end Left

/-! ## Levels whose operands are as many as their arguments -/

section Filled

variable {interface : Interface} {reader : Reader}

/-- The arguments of a level are what they were, each with its kind. -/
theorem map_fst_of_items {options : List OptionSpec} {arguments : List String}
    {all : List Item} (classified : items options arguments = .ok all) :
    all.map Prod.fst = arguments := by
  induction arguments generalizing all with
  | nil =>
      cases classified
      rfl
  | cons argument rest induction =>
      rw [items] at classified
      split at classified
      · cases classified
        rw [List.map_cons, List.map_map]
        exact congrArg (argument :: ·) (List.map_id rest)
      · rcases exists_of_bind_eq_ok classified with ⟨kind, -, classified⟩
        rcases exists_of_bind_eq_ok classified with ⟨others, after, done⟩
        cases done
        exact congrArg (argument :: ·) (induction after)

/-- Arguments that are all operands hold no separator. -/
theorem not_mem_of_items {options : List OptionSpec} {arguments : List String}
    {all : List Item} (classified : items options arguments = .ok all)
    (operands : ∀ item ∈ all, isOperand item = true) : "--" ∉ arguments := by
  induction arguments generalizing all with
  | nil => exact List.not_mem_nil
  | cons argument rest induction =>
      rw [items] at classified
      split at classified
      · cases classified
        exact absurd (operands _ List.mem_cons_self) Bool.false_ne_true
      · rename_i other
        rcases exists_of_bind_eq_ok classified with ⟨kind, -, classified⟩
        rcases exists_of_bind_eq_ok classified with ⟨others, after, done⟩
        cases done
        rw [List.mem_cons, not_or]
        constructor
        · intro same
          exact other (beq_iff_eq.mpr same.symm)
        · exact induction after fun item member =>
            operands item (List.mem_cons_of_mem _ member)

/-- A level is read at once if its operands leave nothing to be read. -/
theorem takeItems_of_takeOperands {slots left : List Slot} {items : List Item}
    {unknown more : List String} {fuel : Nat} {parsed parsed' : Parsed}
    (start : items.head?.all (!isOption ·) = true)
    (taken : takeOperands interface reader slots items parsed =
      .ok (parsed', ⟨left, [], more⟩)) :
    takeItems interface reader (fuel + 1) ⟨slots, items, unknown⟩ parsed =
      .ok (parsed', ⟨left, [], unknown ++ more⟩) := by
  unfold takeItems
  dsimp only
  split
  · cases start
  · cases start
  · rw [taken]
    simp [bind, Except.bind, pure, Except.pure]

/-- Words that are all operands. -/
def asOperands (words : List String) : List Item :=
  words.map fun word => (word, .operand)

theorem takeOperands_cons {word name : String} (plain : "--" ≠ word)
    (words : List String) (slots : List Slot) (parsed : Parsed) :
    takeOperands interface reader (.operand name :: slots)
        (asOperands (word :: words)) parsed =
      takeOperands interface reader slots (asOperands words)
        { parsed with operands := parsed.operands ++ [some word] } := by
  have none : (asOperands words).takeWhile isSeparator = [] := by
    cases words <;> rfl
  have all : (asOperands words).dropWhile isSeparator = asOperands words := by
    cases words <;> rfl
  have text : (([word] : List String).erase "--").head? = some word := by
    rw [List.erase_of_not_mem (by simpa using plain)]
    rfl
  change takeOperands interface reader slots
    ((asOperands words).dropWhile isSeparator)
    { parsed with operands := parsed.operands ++
      [((word :: ((asOperands words).takeWhile isSeparator).map Prod.fst
        ).erase "--").head?] } = _
  rw [none, all, List.map_nil, text]

/-- Operands fill as many places, each with its own text. -/
theorem takeOperands_asOperands {slots : List Slot} {words : List String}
    {parsed : Parsed} (operands : ∀ slot ∈ slots, slot.IsOperand)
    (lengths : slots.length = words.length) (plain : "--" ∉ words) :
    takeOperands interface reader slots (asOperands words) parsed =
      .ok ({ parsed with operands := parsed.operands ++ words.map some },
        ⟨[], [], []⟩) := by
  induction slots generalizing words parsed with
  | nil =>
      cases words with
      | nil => simp [takeOperands, asOperands]
      | cons => contradiction
  | cons slot slots induction =>
      cases words with
      | nil => contradiction
      | cons word words =>
          rcases List.forall_mem_cons.mp operands with ⟨first, others⟩
          rw [List.mem_cons, not_or] at plain
          cases slot with
          | command choice => exact absurd first id
          | operand name =>
              rw [takeOperands_cons plain.1,
                induction others (Nat.succ.inj lengths) plain.2]
              simp

theorem eq_asOperands {all : List Item}
    (operands : ∀ item ∈ all, isOperand item = true) :
    all = asOperands (all.map Prod.fst) := by
  induction all with
  | nil => rfl
  | cons item all induction =>
      rcases List.forall_mem_cons.mp operands with ⟨first, others⟩
      rcases item with ⟨word, _ | _ | _ | _⟩
      · exact congrArg ((word, ArgumentKind.operand) :: ·) (induction others)
      · cases first
      · cases first
      · cases first

theorem eq_nil_of_requiredNames {slots : List Slot}
    (operands : ∀ slot ∈ slots, slot.IsOperand)
    (none : requiredNames slots = []) : slots = [] := by
  cases slots with
  | nil => rfl
  | cons slot slots =>
      rcases List.forall_mem_cons.mp operands with ⟨first, -⟩
      cases slot with
      | operand name => cases none
      | command choice => exact absurd first id

/-- A level that takes as many operands as it has arguments takes every
argument as an operand. -/
theorem readLeaf_operands {interface : Interface} {arguments : List String}
    {parsed : Parsed} (noCommand : interface.choice? = none)
    (lengths : interface.operands.length = arguments.length)
    (read : readLeaf interface arguments = .ok parsed) :
    parsed.operands = arguments.map some ∧ parsed.commands = [] := by
  rcases exists_of_bind_eq_ok read with ⟨all, classified, read⟩
  have classified := eq_ok_of_mapError_eq_ok classified
  have words := map_fst_of_items classified
  rcases exists_of_bind_eq_ok read with ⟨⟨filled, after⟩, taken, done⟩
  have places : slotsOf interface = interface.operands.map .operand := by
    simp [slotsOf, noCommand]
  have operands : ∀ slot ∈ slotsOf interface, slot.IsOperand := by
    rw [places]
    intro slot member
    rcases List.mem_map.mp member with ⟨name, -, rfl⟩
    trivial
  have lengths : (slotsOf interface).length = arguments.length := by
    rw [places, List.length_map, lengths]
  dsimp only at done
  split at done
  · rename_i nothing
    rcases length_slots_of_takeItems operands taken with ⟨left, bound⟩
    rw [eq_nil_of_requiredNames left nothing, lengths, ← words,
      List.length_map, List.length_nil, Nat.zero_add] at bound
    -- No place is left, so there are as many operands as arguments.
    have each : ∀ item ∈ all, isOperand item = true :=
      List.countP_eq_length.mp (Nat.le_antisymm List.countP_le_length bound)
    have plain := not_mem_of_items classified each
    have start : (asOperands arguments).head?.all (!isOption ·) = true := by
      cases arguments <;> rfl
    rw [eq_asOperands each, words, takeItems_of_takeOperands start
      (takeOperands_asOperands operands lengths plain)] at taken
    cases taken
    cases done
    exact ⟨rfl, rfl⟩
  · cases done

end Filled

/-! ## Levels at which a command is given -/

section Given

variable {interface : Interface} {reader : Reader} {choice : Choice}
variable {command : String} {rest : List String} {parsed : Parsed}

theorem exists_of_takeItems {slots : List Slot} {items : List Item}
    {unknown : List String} {fuel : Nat} {result : Parsed × Remaining}
    (start : items.head?.all (!isOption ·) = true)
    (taken : takeItems interface reader (fuel + 1) ⟨slots, items, unknown⟩
      parsed = .ok result) :
    ∃ middle, takeOperands interface reader slots items parsed = .ok middle := by
  unfold takeItems at taken
  dsimp only at taken
  split at taken
  · cases start
  · cases start
  · rcases exists_of_bind_eq_ok taken with ⟨middle, filled, -⟩
    exact ⟨middle, filled⟩

/-- A command takes all that follows it. -/
theorem exists_of_takeOperands {others : List Item} {middle : Parsed × Remaining}
    (among : command ∈ choice.commands)
    (taken : takeOperands interface reader [.command choice]
      ((command, .operand) :: others) parsed = .ok middle) :
    ∃ inner, reader command (others.map Prod.fst) = .ok inner ∧
      middle = ({ parsed with
        given := parsed.given ++ inner.given
        operands := parsed.operands ++ inner.operands
        commands := parsed.commands ++ command :: inner.commands },
        ⟨[], [], inner.unknown⟩) := by
  rcases exists_of_bind_eq_ok taken with ⟨⟨_, unknown⟩, given, done⟩
  rw [List.map_cons, takeCommand, if_pos (by simpa using among)] at given
  rcases exists_of_bind_eq_ok given with ⟨inner, read, made⟩
  cases made
  cases done
  exact ⟨inner, read, rfl⟩

/-- A level at which a command is given first is read as the level of the
command. -/
theorem readLevel_command (noOperands : interface.operands = [])
    (chosen : interface.choice? = some choice)
    (among : command ∈ choice.commands)
    (word : classify interface.options command = .ok .operand)
    (plain : command ≠ "--")
    (read : readLevel interface reader (command :: rest) = .ok parsed) :
    ∃ inner, reader command rest = .ok inner ∧
      parsed.operands = inner.operands ∧
      parsed.commands = command :: inner.commands := by
  rcases exists_of_bind_eq_ok read with ⟨all, classified, read⟩
  have classified := eq_ok_of_mapError_eq_ok classified
  have words := map_fst_of_items classified
  rcases exists_of_bind_eq_ok read with ⟨⟨filled, after⟩, taken, done⟩
  have places : slotsOf interface = [.command choice] := by
    simp [slotsOf, noOperands, chosen]
  rw [items, if_neg (by simpa using plain), word] at classified
  rcases exists_of_bind_eq_ok classified with ⟨_, ⟨⟩, classified⟩
  rcases exists_of_bind_eq_ok classified with ⟨others, -, made⟩
  cases made
  rw [places] at taken
  rcases exists_of_takeItems rfl taken with ⟨middle, filled⟩
  rcases exists_of_takeOperands among filled with ⟨inner, read, rfl⟩
  rw [takeItems_of_takeOperands rfl filled] at taken
  cases taken
  have rest' : others.map Prod.fst = rest := List.tail_eq_of_cons_eq words
  rw [rest'] at read
  refine ⟨inner, read, ?_⟩
  cases done
  exact ⟨rfl, rfl⟩

end Given

end SpecAudit.Command

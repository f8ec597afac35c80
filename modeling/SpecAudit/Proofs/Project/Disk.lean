import Mathlib.Data.List.Nodup
import SpecAudit.Project.Disk.Links
import SpecAudit.Proofs.Project.Way

/-!
# What a disk holds

In a directory no two entries have one name, and names hold no slashes.  Then
there is one way to everything below a directory, and names that lead somewhere
are names of entries, or two dots.
-/

namespace SpecAudit.Project

namespace Entry

/-- Names in directories can be told apart, and hold slashes of neither kind. -/
inductive WellFormed : Entry → Prop
  | file (content : ByteArray) : WellFormed (.file content)
  | link (target : String) : WellFormed (.link target)
  | closedFile : WellFormed .closedFile
  | closedDirectory : WellFormed .closedDirectory
  | directory (entries : List (String × Entry))
      (named : ∀ item ∈ entries, IsName item.1)
      (distinct : (entries.map Prod.fst).Nodup)
      (inner : ∀ item ∈ entries, item.2.WellFormed) :
      WellFormed (.directory entries)

variable {entry inner : Entry} {entries : List (String × Entry)} {name : String}
variable {place : Place}

/-- A directory with one entry. -/
theorem WellFormed.alone (isName : IsName name)
    (wellFormed : entry.WellFormed) :
    (Entry.directory [(name, entry)]).WellFormed :=
  .directory _ (by simpa using isName) (by simp) (by simpa using wellFormed)

theorem WellFormed.of_lookup (wellFormed : (Entry.directory entries).WellFormed)
    (found : entries.lookup name = some inner) :
    IsName name ∧ inner.WellFormed := by
  cases wellFormed with
  | directory _ named distinct wellFormed =>
      rcases List.lookup_eq_some_iff.mp found with ⟨before, after, rfl, -⟩
      have member : (name, inner) ∈ before ++ (name, inner) :: after := by simp
      exact ⟨named _ member, wellFormed _ member⟩

/-- What stands at a place is well-formed, and its name is one. -/
theorem WellFormed.of_at? (wellFormed : entry.WellFormed)
    (found : entry.at? place = some inner) :
    inner.WellFormed ∧ ∀ name ∈ place, IsName name := by
  induction place generalizing entry with
  | nil =>
      cases found
      exact ⟨wellFormed, by simp⟩
  | cons first rest induction =>
      cases entry with
      | directory entries =>
          rw [at?] at found
          split at found
          · rename_i middle looked
            rcases wellFormed.of_lookup looked with ⟨isName, below⟩
            rcases induction below found with ⟨wellFormed, named⟩
            exact ⟨wellFormed, List.forall_mem_cons.mpr ⟨isName, named⟩⟩
          · cases found
      | _ => cases found

/-! ## Ways below an entry -/

/-- The ways from an entry to what is below it, first to its own entries. -/
def routes : Entry → List Place
  | directory entries => entries.map (fun item => [item.1]) ++ nested entries
  | file _ | link _ | closedFile | closedDirectory => []
where
  /-- The ways to what is below the entries, through their names. -/
  nested : List (String × Entry) → List Place
    | [] => []
    | (name, entry) :: rest => entry.routes.map (name :: ·) ++ nested rest

theorem nested_eq (entries : List (String × Entry)) :
    routes.nested entries =
      entries.flatMap fun item => item.2.routes.map (item.1 :: ·) := by
  induction entries with
  | nil => rfl
  | cons first rest induction => rw [routes.nested, induction, List.flatMap_cons]

theorem ne_nil_of_mem_routes {route : Place} (member : route ∈ entry.routes) :
    route ≠ [] := by
  cases entry with
  | directory entries =>
      rw [routes, nested_eq] at member
      rcases List.mem_append.mp member with member | member
      · rcases List.mem_map.mp member with ⟨item, -, rfl⟩
        simp
      · rcases List.mem_flatMap.mp member with ⟨item, -, member⟩
        rcases List.mem_map.mp member with ⟨inner, -, rfl⟩
        simp
  | _ => cases member

theorem WellFormed.isName_of_mem_routes (wellFormed : entry.WellFormed) :
    ∀ route ∈ entry.routes, ∀ name ∈ route, IsName name := by
  induction wellFormed with
  | file | link | closedFile | closedDirectory => simp [routes]
  | directory entries named distinct wellFormed induction =>
      intro route member
      rw [routes, nested_eq] at member
      rcases List.mem_append.mp member with member | member
      · rcases List.mem_map.mp member with ⟨item, listed, rfl⟩
        simpa using named item listed
      · rcases List.mem_flatMap.mp member with ⟨item, listed, below⟩
        rcases List.mem_map.mp below with ⟨inner, among, rfl⟩
        exact List.forall_mem_cons.mpr
          ⟨named item listed, induction item listed inner among⟩

/-- There is one way to everything below an entry. -/
theorem WellFormed.nodup_routes (wellFormed : entry.WellFormed) :
    entry.routes.Nodup := by
  induction wellFormed with
  | file | link | closedFile | closedDirectory => simp [routes]
  | directory entries named distinct wellFormed induction =>
      have single : Function.Injective fun name : String => [name] :=
        fun _ _ same => List.head_eq_of_cons_eq same
      have own : (entries.map fun item => [item.1]).Nodup := by
        have mapped := distinct.map single
        rwa [List.map_map] at mapped
      have below : (routes.nested entries).Nodup := by
        rw [nested_eq, List.nodup_flatMap]
        refine ⟨fun item member =>
          (induction item member).map List.cons_injective, ?_⟩
        refine (List.pairwise_map.mp distinct).imp fun {left right} other => ?_
        intro route inLeft inRight
        rcases List.mem_map.mp inLeft with ⟨_, -, rfl⟩
        rcases List.mem_map.mp inRight with ⟨_, -, same⟩
        exact other (List.head_eq_of_cons_eq same).symm
      rw [routes, List.nodup_append]
      refine ⟨own, below, ?_⟩
      rintro _ inOwn _ inNested rfl
      rw [nested_eq] at inNested
      rcases List.mem_map.mp inOwn with ⟨item, -, rfl⟩
      rcases List.mem_flatMap.mp inNested with ⟨other, -, member⟩
      rcases List.mem_map.mp member with ⟨inner, member, same⟩
      exact ne_nil_of_mem_routes member (List.tail_eq_of_cons_eq same)

end Entry

/-! ## What stands at a place -/

section Places

variable {entries : List (String × Entry)} {name : String} {entry : Entry}

theorem lookup_eq_some_iff_mem (distinct : (entries.map Prod.fst).Nodup) :
    entries.lookup name = some entry ↔ (name, entry) ∈ entries := by
  constructor
  · intro found
    rcases List.lookup_eq_some_iff.mp found with ⟨before, after, rfl, -⟩
    simp
  · intro member
    rcases List.append_of_mem member with ⟨before, after, rfl⟩
    apply List.lookup_eq_some_iff.mpr
    refine ⟨before, after, rfl, fun item among => ?_⟩
    rw [List.map_append, List.map_cons, List.nodup_append] at distinct
    have other := distinct.2.2 item.1 (List.mem_map_of_mem among) name
      List.mem_cons_self
    simpa using Ne.symm other

theorem at?_append (entry : Entry) (place rest : Place) :
    entry.at? (place ++ rest) = (entry.at? place).bind (·.at? rest) := by
  induction place generalizing entry with
  | nil => cases entry <;> rfl
  | cons first place induction =>
      cases entry with
      | directory entries =>
          rw [List.cons_append, Entry.at?, Entry.at?]
          cases entries.lookup first with
          | none => rfl
          | some inner => exact induction inner
      | _ => rfl

/-- What stands under a name in a directory. -/
theorem at?_directory {top : Entry} {place : Place}
    (stands : top.at? place = some (.directory entries)) (name : String) :
    top.at? (place ++ [name]) = entries.lookup name := by
  rw [at?_append, stands, Option.bind_some, Entry.at?]
  cases entries.lookup name with
  | none => rfl
  | some inner => cases inner <;> rfl

/-- Whatever has something below it is a directory. -/
theorem exists_directory_of_at?_cons {rest : Place} {inner : Entry}
    (stands : entry.at? (name :: rest) = some inner) :
    ∃ entries, entry = .directory entries := by
  cases entry with
  | directory entries => exact ⟨entries, rfl⟩
  | _ => cases stands

end Places

/-! ## Names that lead somewhere -/

section Reach

variable {top : Entry} {place there : Place}

theorem walkOff_ne_present {name : String} {rest : List String} :
    walkOff place name rest ≠ .ok (.present there) := by
  fun_cases walkOff place name rest <;> nofun

theorem pathBytes_concat (place : Place) (name : String) :
    pathBytes (place ++ [name]) = pathBytes place + (nameBytes name + 1) := by
  simp only [pathBytes, List.foldl_append]
  rfl

/-- Names from the top are followed if their path is not too long. -/
theorem reach_eq_ok_iff {names : List String} {reached : Reached} :
    reach top names = .ok reached ↔
      pathBytes names ≤ maxPathBytes ∧
        follow top maxLinks [] names = .ok reached := by
  fun_cases reach top names with
  | case1 long => simp [Nat.not_le.mpr long]
  | case2 fits => simp [Nat.not_lt.mp fits]

theorem isName_of_walk (wellFormed : top.WellFormed)
    {next : Place → List String → Except DiskFault Reached}
    (named : ∀ place names, next place names = .ok (.present there) →
      ∀ name ∈ names, name = ".." ∨ IsName name) {names : List String}
    (reached : walk top next place names = .ok (.present there)) :
    ∀ name ∈ names, name = ".." ∨ IsName name := by
  induction names generalizing place with
  | nil => simp
  | cons first rest induction =>
      rw [walk] at reached
      split at reached
      · split at reached
        · rename_i dots
          exact List.forall_mem_cons.mpr
            ⟨.inl (by simpa using dots), induction reached⟩
        · split at reached
          · -- A link is found under a name, too, before it is followed.
            rename_i target found
            have isName := (wellFormed.of_at? found).2 first (by simp)
            refine List.forall_mem_cons.mpr ⟨.inr isName, ?_⟩
            intro name member
            exact named _ _ reached name (List.mem_append_right _ member)
          · rename_i inner found
            have isName := (wellFormed.of_at? found).2 first (by simp)
            exact List.forall_mem_cons.mpr ⟨.inr isName, induction reached⟩
          · exact absurd reached walkOff_ne_present
      · cases reached
      · cases reached
      · cases reached

theorem isName_of_follow (wellFormed : top.WellFormed) {links : Nat}
    {names : List String}
    (reached : follow top links place names = .ok (.present there)) :
    ∀ name ∈ names, name = ".." ∨ IsName name := by
  induction links generalizing place names with
  | zero => exact isName_of_walk wellFormed (by simp) reached
  | succ links induction =>
      exact isName_of_walk wellFormed
        (fun _ _ reached => induction reached) reached

theorem lexically_cons (first : String) (rest : List String) :
    lexically place (first :: rest) =
      lexically (if first == ".." then place.dropLast else place ++ [first])
        rest :=
  rfl

theorem mem_lexically {names : List String} {name : String}
    (member : name ∈ lexically place names) :
    name ∈ place ∨ (name ∈ names ∧ name ≠ "..") := by
  induction names generalizing place with
  | nil => exact .inl member
  | cons first rest induction =>
      rw [lexically_cons] at member
      rcases induction member with member | ⟨member, other⟩
      · split at member
        · exact .inl (List.dropLast_subset _ member)
        · rename_i other
          rcases List.mem_append.mp member with member | member
          · exact .inl member
          · rw [List.mem_singleton] at member
            subst member
            exact .inr ⟨List.mem_cons_self, by simpa using other⟩
      · exact .inr ⟨List.mem_cons_of_mem _ member, other⟩

/-- Names that lead somewhere lead through names of entries. -/
theorem isName_of_reach (wellFormed : top.WellFormed) {names : List String}
    (reached : reach top names = .ok (.present there)) :
    ∀ name ∈ lexically [] names, IsName name := by
  intro name member
  rcases mem_lexically member with member | ⟨member, other⟩
  · cases member
  · have followed := (reach_eq_ok_iff.mp reached).2
    rcases isName_of_follow wellFormed followed name member with dots | isName
    · contradiction
    · exact isName

end Reach

end SpecAudit.Project

import SpecAudit.Proofs.Project.Search

/-!
# Directories listed in another order

A disk does not say in which order its directories list their entries.  Two
disks that differ in nothing else show the same kind of entry at every place.
So the same paths lead somewhere on both, and a search comes to the same files.
-/

namespace SpecAudit.Project

namespace Entry

/-- Whether two entries hold the same, listed in any order at every level. -/
inductive Reordered : Entry → Entry → Prop
  | refl (entry : Entry) : Reordered entry entry
  | trans {left middle right : Entry} (first : Reordered left middle)
      (second : Reordered middle right) : Reordered left right
  | listed {entries others : List (String × Entry)}
      (order : entries.Perm others) :
      Reordered (.directory entries) (.directory others)
  | within (before after : List (String × Entry)) (name : String)
      {entry other : Entry} (inner : Reordered entry other) :
      Reordered (.directory (before ++ (name, entry) :: after))
        (.directory (before ++ (name, other) :: after))

/-- An entry without what a directory holds. -/
def face : Entry → Entry
  | directory _ => directory []
  | entry => entry

/-- Whether two disks show the same kind of entry at every place. -/
def Alike (left right : Entry) : Prop :=
  ∀ place, (left.at? place).map face = (right.at? place).map face

variable {left right : Entry}

theorem Reordered.wellFormed (reordered : left.Reordered right)
    (wellFormed : left.WellFormed) : right.WellFormed := by
  induction reordered with
  | refl => exact wellFormed
  | trans _ _ first second => exact second (first wellFormed)
  | listed order =>
      cases wellFormed with
      | directory _ named distinct inner =>
          apply WellFormed.directory
          · exact fun item member => named item (order.mem_iff.mpr member)
          · exact (order.map Prod.fst).nodup_iff.mp distinct
          · exact fun item member => inner item (order.mem_iff.mpr member)
  | within before after name _ induction =>
      cases wellFormed with
      | directory _ named distinct inner =>
          simp only [List.forall_mem_append, List.forall_mem_cons]
            at named inner
          apply WellFormed.directory
          · simpa only [List.forall_mem_append, List.forall_mem_cons] using
              named
          · simpa using distinct
          · simp only [List.forall_mem_append, List.forall_mem_cons]
            exact ⟨inner.1, induction inner.2.1, inner.2.2⟩

theorem WellFormed.lookup_eq_some_iff {entries : List (String × Entry)}
    (wellFormed : (Entry.directory entries).WellFormed) {name : String}
    {entry : Entry} :
    entries.lookup name = some entry ↔ (name, entry) ∈ entries := by
  cases wellFormed with
  | directory _ _ distinct _ => exact lookup_eq_some_iff_mem distinct

theorem at?_cons (entries : List (String × Entry)) (name : String)
    (rest : Place) :
    (directory entries).at? (name :: rest) =
      (entries.lookup name).bind (·.at? rest) := by
  rw [at?]
  cases entries.lookup name <;> rfl

theorem Reordered.alike (reordered : left.Reordered right)
    (wellFormed : left.WellFormed) : left.Alike right := by
  induction reordered with
  | refl => exact fun _ => rfl
  | trans first _ alike alike' =>
      exact fun place => (alike wellFormed place).trans
        (alike' (first.wellFormed wellFormed) place)
  | @listed entries others order =>
      have wellFormed' := (Reordered.listed order).wellFormed wellFormed
      intro place
      cases place with
      | nil => rfl
      | cons name rest =>
          have same : entries.lookup name = others.lookup name := by
            apply Option.ext
            intro entry
            rw [wellFormed.lookup_eq_some_iff, wellFormed'.lookup_eq_some_iff,
              order.mem_iff]
          rw [at?_cons, at?_cons, same]
  | @within before after name entry other inner induction =>
      have wellFormed' :=
        (Reordered.within before after name inner).wellFormed wellFormed
      intro place
      cases place with
      | nil => rfl
      | cons first rest =>
          rw [at?_cons, at?_cons]
          by_cases same : first = name
          · subst same
            have found : (before ++ (first, entry) :: after).lookup first =
                some entry :=
              wellFormed.lookup_eq_some_iff.mpr (by simp)
            have found' : (before ++ (first, other) :: after).lookup first =
                some other :=
              wellFormed'.lookup_eq_some_iff.mpr (by simp)
            rw [found, found']
            exact induction (wellFormed.of_lookup found).2 rest
          · have passed : (before ++ (name, entry) :: after).lookup first =
                (before ++ (name, other) :: after).lookup first := by
              apply Option.ext
              intro inner
              rw [wellFormed.lookup_eq_some_iff,
                wellFormed'.lookup_eq_some_iff]
              simp [same]
            rw [passed]

/-- On two disks that are alike there are directories at a place, or there is
the same. -/
theorem Alike.cases (alike : left.Alike right) (place : Place) :
    (left.at? place = right.at? place ∧
      ∀ entries, left.at? place ≠ some (.directory entries)) ∨
      ∃ entries others, left.at? place = some (.directory entries) ∧
        right.at? place = some (.directory others) := by
  have same := alike place
  cases here : left.at? place with
  | none => cases there : right.at? place <;> simp_all
  | some entry =>
      cases there : right.at? place with
      | none => simp_all
      | some other => cases entry <;> cases other <;> simp_all [face]

theorem Alike.exists_at? (alike : left.Alike right) {place : Place}
    {entry : Entry} (found : left.at? place = some entry) :
    ∃ other, right.at? place = some other ∧ entry.face = other.face := by
  have same := alike place
  rw [found, Option.map_some] at same
  rcases Option.map_eq_some_iff.mp same.symm with ⟨other, there, faces⟩
  exact ⟨other, there, faces.symm⟩

theorem Alike.isDirectory (alike : left.Alike right) (place : Place) :
    (left.at? place).any Entry.isDirectory =
      (right.at? place).any Entry.isDirectory := by
  rcases alike.cases place with ⟨same, -⟩ | ⟨entries, others, here, there⟩
  · rw [same]
  · rw [here, there]
    rfl

/-! ## Paths on disks that are alike -/

theorem Alike.walk_eq (alike : left.Alike right)
    {next next' : Place → List String → Except DiskFault Reached}
    (follows : ∀ place names, next place names = next' place names)
    (place : Place) (names : List String) :
    walk left next place names = walk right next' place names := by
  induction names generalizing place with
  | nil => rfl
  | cons name rest induction =>
      rw [walk, walk]
      rcases alike.cases place with ⟨same, other⟩ |
        ⟨entries, others, here, there⟩
      · rw [← same]
        cases found : left.at? place with
        | none => rfl
        | some entry =>
            cases entry with
            | directory entries => exact absurd found (other entries)
            | _ => rfl
      · rw [here, there]
        dsimp only
        split
        · exact induction _
        · rcases alike.cases (place ++ [name]) with ⟨same, -⟩ |
            ⟨entries, others, here, there⟩
          · rw [← same]
            split
            · exact follows _ _
            · exact induction _
            · rfl
          · rw [here, there]
            exact induction _

theorem Alike.follow_eq (alike : left.Alike right) (links : Nat)
    (place : Place) (names : List String) :
    follow left links place names = follow right links place names := by
  induction links generalizing place names with
  | zero => exact alike.walk_eq (fun _ _ => rfl) place names
  | succ links induction => exact alike.walk_eq induction place names

theorem Alike.reach_eq (alike : left.Alike right) (names : List String) :
    reach left names = reach right names := by
  rw [reach, reach, alike.follow_eq]

theorem Alike.leadsToDirectory_eq {search search' : Search}
    (alike : search.project.disk.Alike search'.project.disk)
    {entry entry' : Entry} (same : entry.face = entry'.face) (place : Place) :
    search.leadsToDirectory place entry =
      search'.leadsToDirectory place entry' := by
  cases entry <;> cases entry' <;> simp only [face, reduceCtorEq] at same
  · rfl
  · rfl
  · rename_i target target'
    cases same
    rw [Search.leadsToDirectory, Search.leadsToDirectory]
    unfold entryFrom?
    rw [alike.follow_eq]
    split
    · exact alike.isDirectory _
    · rfl
  · rfl
  · rfl

end Entry

open Entry (Alike)

theorem leadsToFile_iff_of_alike (search search' : Search)
    (alike : search.project.disk.Alike search'.project.disk)
    (endings : search.endings = search'.endings) {place route : Place}
    {name : String} :
    search.LeadsToFile place route name ↔
      search'.LeadsToFile place route name := by
  have goes {search search' : Search}
      (alike : search.project.disk.Alike search'.project.disk)
      (endings : search.endings = search'.endings)
      (leads : search.LeadsToFile place route name) :
      search'.LeadsToFile place route name := by
    rcases leads with
      ⟨⟨entries, through⟩, searched, ⟨entry, found, isFile⟩, wanted⟩
    have through' : ∃ others, search'.project.disk.at? (place ++ route) =
        some (.directory others) := by
      rcases alike.exists_at? through with ⟨other, there, faces⟩
      cases other with
      | directory others => exact ⟨others, there⟩
      | _ => cases faces
    rcases alike.exists_at? found with ⟨other, there, faces⟩
    refine ⟨through', searched, ⟨other, there, ?_⟩, ?_⟩
    · rw [← alike.leadsToDirectory_eq faces, isFile]
    · rw [Search.hasEnding, ← endings]
      exact wanted
  exact ⟨goes alike endings, goes (fun place => (alike place).symm) endings.symm⟩

end SpecAudit.Project

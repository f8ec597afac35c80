import SpecAudit.Proofs.Audit.Existence
import SpecAudit.Proofs.Audit.FileScan

/-!
# Methods with too few contexts

The check of contexts judges every method of a file once, in order.  It reports
those of which contexts are counted and are fewer than the branches, but not
none.  What it says of a method depends on the spec document alone that the
index gives for the file, whichever methods were judged before.  Only where the
spec cannot be looked up, the first method that is not left out ends the check.
-/

namespace SpecAudit.Audit

open SpecAudit.Config (Settings)
open SpecAudit.Method (Site countBranches)
open SpecAudit.Spec (Forest Structure)

/--
Whether the contexts of a method can be counted, and how many branches and
contexts it has: its file is covered, its name is not left out, and the spec of
the file is there and can be read.
-/
structure IsCounted (workspace : Workspace) (settings : Settings)
    (index : SpecIndex) (path : String) (site : Site)
    (branches contexts : Nat) : Prop where
  covered : settings.covers path = .ok true
  kept : settings.excludesMethod site.name = .ok false
  specified : ∃ specPath forest,
    Path.specPath? path = some specPath ∧
    workspace.project.hasFile specPath = .ok true ∧
    index.given workspace specPath = .ok (some forest) ∧
    forest.countContexts site.name = contexts
  branching : countBranches settings.ignoreMemoization site.node = branches

/-- Which verdict is given on a method, by what its file, its name, its branches
and its spec are like. -/
inductive IsJudged (workspace : Workspace) (settings : Settings)
    (index : SpecIndex) (path : String) (site : Site) : Verdict → Prop where
  | outside (uncovered : settings.covers path = .ok false) :
      IsJudged workspace settings index path site .outside
  | excluded (leftOut : settings.excludesMethod site.name = .ok true) :
      IsJudged workspace settings index path site .excluded
  | noSpecFile (absent : ∀ specPath, Path.specPath? path = some specPath →
        workspace.project.hasFile specPath = .ok false) :
      IsJudged workspace settings index path site .noSpecFile
  | simple (few : countBranches settings.ignoreMemoization site.node <
        minBranches) :
      IsJudged workspace settings index path site
        (.simple (countBranches settings.ignoreMemoization site.node))
  | unreadable {specPath : String}
      (conventional : Path.specPath? path = some specPath)
      (unread : index.given workspace specPath = .ok none) :
      IsJudged workspace settings index path site
        (.unreadable (countBranches settings.ignoreMemoization site.node))
  | counted {branches contexts : Nat}
      (counted : IsCounted workspace settings index path site branches contexts)
      (enough : minBranches ≤ branches) :
      IsJudged workspace settings index path site (.ofCounts branches contexts)

variable {workspace : Workspace} {settings : Settings} {way : Structure}
variable {path file : String} {site : Site} {verdict : Verdict}
variable {index given later : SpecIndex} {branches contexts : Nat}

/-! ## What the verdicts say -/

theorem IsCounted.unique {branches' contexts' : Nat}
    (one : IsCounted workspace settings index path site branches contexts)
    (other : IsCounted workspace settings index path site branches' contexts') :
    branches = branches' ∧ contexts = contexts' := by
  rcases one.specified with ⟨specPath, forest, conventional, -, read, counted⟩
  rcases other.specified with
    ⟨specPath', forest', conventional', -, read', counted'⟩
  cases conventional.symm.trans conventional'
  cases read.symm.trans read'
  exact ⟨one.branching.symm.trans other.branching, counted.symm.trans counted'⟩

/-- An index that has taken in nothing counts the contexts that the spec of the
file has now, if it can be read. -/
theorem isCounted_empty_iff :
    IsCounted workspace settings (.empty way.name) path site branches
        contexts ↔
      settings.covers path = .ok true ∧
        settings.excludesMethod site.name = .ok false ∧
        (∃ specPath text, Path.specPath? path = some specPath ∧
          workspace.project.hasFile specPath = .ok true ∧
          workspace.project.text? specPath = some text ∧
          (Spec.forestOf workspace.grammar way text).countContexts site.name =
            contexts) ∧
        countBranches settings.ignoreMemoization site.node = branches := by
  have given (specPath : String) :
      (SpecIndex.empty way.name).given workspace specPath =
        .ok (forestNow workspace way specPath) :=
    SpecIndex.isCurrent_empty.given specPath
  constructor
  · rintro ⟨covered, kept, ⟨specPath, forest, conventional, present, read,
      counted⟩, branching⟩
    rw [given, forestNow, Except.ok.injEq, Option.map_eq_some_iff] at read
    rcases read with ⟨text, read, rfl⟩
    exact ⟨covered, kept, ⟨specPath, text, conventional, present, read,
      counted⟩, branching⟩
  · rintro ⟨covered, kept, ⟨specPath, text, conventional, present, read,
      counted⟩, branching⟩
    refine ⟨covered, kept, ⟨specPath, _, conventional, present, ?_, counted⟩,
      branching⟩
    rw [given, forestNow, read]
    rfl

/-- A method whose contexts are counted gets the verdict on its counts, unless
it has too few branches. -/
theorem IsJudged.eq_ofCounts
    (judged : IsJudged workspace settings index path site verdict)
    (counted : IsCounted workspace settings index path site branches contexts)
    (enough : minBranches ≤ branches) :
    verdict = .ofCounts branches contexts := by
  rcases counted.specified with ⟨specPath, forest, conventional, present, read, -⟩
  cases judged with
  | outside uncovered => cases counted.covered.symm.trans uncovered
  | excluded leftOut => cases counted.kept.symm.trans leftOut
  | noSpecFile absent =>
      cases present.symm.trans (absent specPath conventional)
  | simple few =>
      rw [counted.branching] at few
      exact absurd enough (Nat.not_le_of_lt few)
  | unreadable conventional' unread =>
      cases conventional.symm.trans conventional'
      cases read.symm.trans unread
  | counted counted' =>
      rcases counted.unique counted' with ⟨rfl, rfl⟩
      rfl

namespace Verdict

theorem ofCounts_of_eq_zero (none : contexts = 0) :
    ofCounts branches contexts = unspecced branches :=
  if_pos none

theorem ofCounts_of_lt (some : contexts ≠ 0) (fewer : contexts < branches) :
    ofCounts branches contexts = insufficient branches contexts := by
  rw [ofCounts, if_neg some, if_neg (Nat.not_le_of_lt fewer)]

end Verdict

section Judged

variable (judged : IsJudged workspace settings index path site verdict)

include judged

theorem IsJudged.eq_insufficient_iff (branches contexts : Nat) :
    verdict = .insufficient branches contexts ↔
      IsCounted workspace settings index path site branches contexts ∧
        0 < contexts ∧ contexts < branches := by
  constructor
  · rintro rfl
    generalize result : Verdict.insufficient branches contexts = verdict
      at judged
    cases judged with
    | counted counted enough =>
        rcases Verdict.ofCounts_eq_insufficient result.symm with
          ⟨rfl, rfl, some, fewer⟩
        exact ⟨counted, some, fewer⟩
    | _ => cases result
  · rintro ⟨counted, some, fewer⟩
    have two : minBranches ≤ branches :=
      Nat.le_trans (Nat.succ_le_succ some) fewer
    rw [judged.eq_ofCounts counted two,
      Verdict.ofCounts_of_lt (Nat.ne_of_gt some) fewer]

theorem IsJudged.eq_covered_iff (branches contexts : Nat) :
    verdict = .covered branches contexts ↔
      IsCounted workspace settings index path site branches contexts ∧
        minBranches ≤ branches ∧ branches ≤ contexts := by
  constructor
  · rintro rfl
    generalize result : Verdict.covered branches contexts = verdict at judged
    cases judged with
    | counted counted two =>
        rcases Verdict.ofCounts_eq_covered result.symm with
          ⟨rfl, rfl, enough⟩
        exact ⟨counted, two, enough⟩
    | _ => cases result
  · rintro ⟨counted, two, enough⟩
    have some : contexts ≠ 0 :=
      Nat.ne_of_gt (Nat.lt_of_lt_of_le Nat.two_pos (Nat.le_trans two enough))
    rw [judged.eq_ofCounts counted two, Verdict.ofCounts_of_le some enough]

theorem IsJudged.eq_unspecced_iff (branches : Nat) :
    verdict = .unspecced branches ↔
      IsCounted workspace settings index path site branches 0 ∧
        minBranches ≤ branches := by
  constructor
  · rintro rfl
    generalize result : Verdict.unspecced branches = verdict at judged
    cases judged with
    | counted counted two =>
        rcases Verdict.ofCounts_eq_unspecced result.symm with ⟨rfl, none⟩
        rw [none] at counted
        exact ⟨counted, two⟩
    | _ => cases result
  · rintro ⟨counted, two⟩
    rw [judged.eq_ofCounts counted two, Verdict.ofCounts_of_eq_zero rfl]

theorem IsJudged.of_eq_simple (isSimple : verdict = .simple branches) :
    branches = countBranches settings.ignoreMemoization site.node ∧
      branches < minBranches := by
  cases judged with
  | simple few =>
      cases isSimple
      exact ⟨rfl, few⟩
  | counted counted two =>
      unfold Verdict.ofCounts at isSimple
      split at isSimple
      · cases isSimple
      · split at isSimple <;> cases isSimple
  | _ => cases isSimple

end Judged

/-! ## Judging the methods of a file -/

/-- Whether two indexes give the same for every path. -/
def SpecIndex.GivesAs (workspace : Workspace) (index given : SpecIndex) :
    Prop :=
  ∀ path, given.given workspace path = index.given workspace path

/-- An index that reads documents in a known way gives something for each. -/
theorem SpecIndex.exists_given (workspace : Workspace)
    (known : index.structureName = way.name) (path : String) :
    ∃ blocks, index.given workspace path = .ok blocks := by
  unfold SpecIndex.given
  cases index.forests.lookup path with
  | some kept => exact ⟨kept, rfl⟩
  | none => exact ⟨_, known ▸ readForest_name path⟩

/-- Every method is judged, whatever the index has taken in since, unless the
spec cannot be looked up. -/
theorem exists_auditMethod (textual : settings.IsTextual)
    (known : index.structureName = way.name)
    (gives : index.GivesAs workspace given)
    (goesOn : ∀ fault, ¬ IsRefused workspace settings path [site] fault) :
    ∃ verdict later,
      outcome (auditMethod workspace settings path site) given =
          (.ok verdict, later) ∧
        index.GivesAs workspace later ∧
        IsJudged workspace settings index path site verdict := by
  rcases textual.exists_covers path with ⟨covered, covers⟩
  rcases textual.exists_excludesMethod site.name with ⟨excluded, excludes⟩
  unfold auditMethod
  rw [covers, outcome_bind_of_ok (outcome_ofSettings_ok covered given)]
  cases covered with
  | false => exact ⟨_, _, rfl, gives, .outside covers⟩
  | true =>
      simp only [Bool.not_true, Bool.false_eq_true, if_false]
      rw [excludes, outcome_bind_of_ok (outcome_ofSettings_ok excluded given)]
      cases excluded with
      | true => exact ⟨_, _, rfl, gives, .excluded excludes⟩
      | false =>
          simp only [Bool.false_eq_true, if_false]
          cases conventional : Path.specPath? path with
          | none =>
              exact ⟨_, _, rfl, gives, .noSpecFile (by simp [conventional])⟩
          | some specPath =>
              dsimp only
              have free (fault) : ¬ IsBarred workspace path fault :=
                fun barred => goesOn fault
                  ⟨covers, barred, site, List.mem_cons_self, excludes⟩
              rcases exists_hasFile_of_not_isBarred free conventional with
                ⟨present, looked⟩
              rw [looked, outcome_bind_of_ok (outcome_ofDisk_ok present given)]
              cases present with
              | false =>
                  exact ⟨_, _, rfl, gives,
                    .noSpecFile (by simp [conventional, looked])⟩
              | true =>
                  simp only [Bool.not_true, Bool.false_eq_true, if_false]
                  split
                  · exact ⟨_, _, rfl, gives, .simple ‹_›⟩
                  · rename_i two
                    rcases SpecIndex.exists_given workspace known specPath
                      with ⟨blocks, read⟩
                    have read' := (gives specPath).trans read
                    rw [outcome_bind_of_ok
                      (SpecIndex.outcome_forest_of_ok read')]
                    have gives' : index.GivesAs workspace
                        (given.keep specPath blocks) := fun other =>
                      (SpecIndex.given_keep read' other).trans (gives other)
                    cases blocks with
                    | none =>
                        exact ⟨_, _, rfl, gives',
                          .unreadable conventional read⟩
                    | some forest =>
                        refine ⟨_, _, rfl, gives', .counted ⟨covers, excludes,
                          ⟨specPath, forest, conventional, looked, read, rfl⟩,
                          rfl⟩ (Nat.le_of_not_lt two)⟩

/-- The methods of a file are judged in order, each of them once, unless the
spec cannot be looked up. -/
theorem exists_auditFile (textual : settings.IsTextual)
    (known : index.structureName = way.name) :
    ∀ {sites : List Site} {given : SpecIndex},
      index.GivesAs workspace given →
      (∀ fault, ¬ IsRefused workspace settings path sites fault) →
      ∃ audited later,
        outcome (auditFile workspace settings path sites) given =
            (.ok audited, later) ∧
          audited.map Prod.fst = sites ∧
          ∀ site verdict, (site, verdict) ∈ audited →
            IsJudged workspace settings index path site verdict
  | [], given, _, _ => ⟨[], given, rfl, rfl, by simp⟩
  | site :: sites, given, gives, goesOn => by
      have own (fault) : ¬ IsRefused workspace settings path [site] fault :=
        fun refused => goesOn fault <| refused.of_subset (by simp)
      have later (fault) : ¬ IsRefused workspace settings path sites fault :=
        fun refused => goesOn fault <| refused.of_subset (by simp)
      rcases exists_auditMethod textual known gives own with
        ⟨verdict, middle, first, gives', judged⟩
      rcases exists_auditFile textual known gives' later with
        ⟨audited, later, others, order, facts⟩
      have own : outcome (do
          let verdict ← auditMethod workspace settings path site
          return (site, verdict)) given = (.ok (site, verdict), middle) :=
        outcome_bind_of_ok first
      refine ⟨(site, verdict) :: audited, later, ?_, ?_, ?_⟩
      · rw [auditFile] at others ⊢
        rw [List.mapM_cons, outcome_bind_of_ok own, outcome_bind_of_ok others]
        rfl
      · rw [List.map_cons, order]
      · intro site' verdict' member
        rcases List.mem_cons.mp member with same | member
        · cases same
          exact judged
        · exact facts site' verdict' member

/-! ## Findings -/

/-- The word for a number of contexts. -/
def contextsWord (contexts : Nat) : String :=
  if contexts = 1 then "context" else "contexts"

/-- The finding about a method that has fewer contexts than branches. -/
def lackFinding (file : String) (site : Site) (branches contexts : Nat) :
    Finding where
  id := Finding.identifier Cop.sufficientContexts.name file site.name site.line
  detector := Cop.sufficientContexts.name
  file := file
  line := site.line
  column := site.column
  name := site.name
  severity := .convention
  summary :=
    let missing := branches - contexts
    s!"Method `{site.name}` has {branches} branches but only {contexts} "
      ++ contextsWord contexts ++ s!" in spec. Add {missing} more "
      ++ contextsWord missing ++ " to cover all branches."
  detail := [("branches", .int branches), ("contexts", .int contexts),
    ("missing", .int (branches - contexts : Nat))]

/-- The finding about a method that was judged to have too few contexts. -/
def lackFinding? (file : String) : Site × Verdict → Option Finding
  | (site, .insufficient branches contexts) =>
    some (lackFinding file site branches contexts)
  | _ => none

theorem pluralize_context (contexts : Nat) :
    Finding.pluralize "context" contexts = contextsWord contexts := by
  unfold Finding.pluralize contextsWord
  by_cases one : contexts = 1
  · simp [one]
  · have other : ((contexts : Int) == 1) = false := by
      rw [beq_eq_false_iff_ne]
      omega
    simp [one, other]

theorem contextsMessage_eq (name : String) (some : 0 < contexts)
    (fewer : contexts < branches) :
    Finding.contextsMessage name branches contexts =
      s!"Method `{name}` has {branches} branches but only {contexts} "
        ++ contextsWord contexts ++ s!" in spec. Add {branches - contexts} more "
        ++ contextsWord (branches - contexts) ++ " to cover all branches." := by
  have missing : (branches : Int) - contexts = (branches - contexts : Nat) :=
    (Int.ofNat_sub (Nat.le_of_lt fewer)).symm
  have several : Finding.pluralize "branch" branches = "branches" := by
    have other : ((branches : Int) == 1) = false := by
      rw [beq_eq_false_iff_ne]
      omega
    simp [Finding.pluralize, other]
  have shown (count : Nat) : toString (count : Int) = toString count := rfl
  have branchesWord (rest : String) :
      " " ++ ("branches" ++ (" but only " ++ rest)) =
        " branches but only " ++ rest := by
    rw [← String.append_assoc, ← String.append_assoc]
    rfl
  have added (rest : String) :
      " in spec. " ++ ("Add " ++ rest) = " in spec. Add " ++ rest :=
    String.append_assoc.symm
  have self (text : String) : toString text = text := rfl
  unfold Finding.contextsMessage
  simp only [missing, several, pluralize_context, shown, self,
    String.append_assoc, branchesWord, added]

/-- What is reported of a judged method is the finding about what it lacks. -/
theorem IsJudged.finding_eq {diagnostic : Diagnostic}
    (judged : IsJudged workspace settings index path site verdict)
    (made : verdict.diagnostic? path site = some diagnostic) :
    ∃ branches contexts,
      verdict = .insufficient branches contexts ∧
        diagnostic.finding workspace.project =
          (Finding.filePath workspace.project path).map
            (lackFinding · site branches contexts) := by
  cases verdict with
  | insufficient branches contexts =>
      rcases (judged.eq_insufficient_iff branches contexts).mp rfl with
        ⟨-, some, fewer⟩
      have missing :
          (branches : Int) - contexts = (branches - contexts : Nat) :=
        (Int.ofNat_sub (Nat.le_of_lt fewer)).symm
      refine ⟨branches, contexts, rfl, ?_⟩
      cases made
      unfold Diagnostic.finding Diagnostic.message Finding.make
      dsimp only
      rw [contextsMessage_eq site.name some fewer, missing]
      cases Finding.filePath workspace.project path <;> rfl
  | _ => cases made

/-- Where the file can be shown, one finding is made of each method that lacks
contexts, in their order. -/
theorem outcome_mapM_finding (index : SpecIndex)
    (shown : Finding.filePath workspace.project path = .ok file) :
    ∀ {audited : List (Site × Verdict)},
      (∀ site verdict, (site, verdict) ∈ audited →
        IsJudged workspace settings given path site verdict) →
      outcome ((diagnostics path audited).mapM fun diagnostic =>
          ofDisk (diagnostic.finding workspace.project)) index =
        (.ok (audited.filterMap (lackFinding? file)), index)
  | [], _ => rfl
  | (site, verdict) :: rest, judged => by
      have others := outcome_mapM_finding index shown fun site verdict member =>
        judged site verdict (List.mem_cons_of_mem _ member)
      unfold diagnostics at others ⊢
      cases made : verdict.diagnostic? path site with
      | none =>
          have skipped : lackFinding? file (site, verdict) = none := by
            cases verdict <;> first | rfl | cases made
          simp only [List.filterMap_cons, made, skipped]
          exact others
      | some diagnostic =>
          rcases (judged site verdict List.mem_cons_self).finding_eq made with
            ⟨branches, contexts, rfl, found⟩
          have own : outcome (ofDisk (diagnostic.finding workspace.project))
              index = (.ok (lackFinding file site branches contexts), index) := by
            rw [found, shown]
            rfl
          simp only [List.filterMap_cons, made, List.mapM_cons]
          rw [outcome_bind_of_ok own, outcome_bind_of_ok others]
          rfl

/-- Where it cannot, the first method that lacks contexts ends the check. -/
theorem outcome_mapM_finding_of_error {fault : Project.DiskFault}
    {audited : List (Site × Verdict)} (index : SpecIndex)
    (hidden : Finding.filePath workspace.project path = .error fault)
    (judged : ∀ site verdict, (site, verdict) ∈ audited →
      IsJudged workspace settings given path site verdict)
    (lacking : ∃ site branches contexts,
      (site, Verdict.insufficient branches contexts) ∈ audited) :
    outcome ((diagnostics path audited).mapM fun diagnostic =>
        ofDisk (diagnostic.finding workspace.project)) index =
      (.error (.path fault), index) := by
  have fails : ∀ diagnostic ∈ diagnostics path audited,
      outcome (ofDisk (diagnostic.finding workspace.project)) index =
        (.error (.path fault), index) := by
    intro diagnostic member
    rcases List.mem_filterMap.mp member with ⟨⟨site, verdict⟩, listed, made⟩
    rcases (judged site verdict listed).finding_eq made with ⟨_, _, -, found⟩
    rw [found, hidden]
    rfl
  rcases lacking with ⟨site, branches, contexts, listed⟩
  have reported : _ ∈ diagnostics path audited :=
    List.mem_filterMap.mpr ⟨_, listed, rfl⟩
  exact outcome_mapM_of_error
    (fun diagnostic member => .inr (fails diagnostic member))
    ⟨_, reported, fails _ reported⟩

/-- Where no method lacks contexts, there is nothing to report. -/
theorem diagnostics_eq_nil {audited : List (Site × Verdict)}
    (enough : ∀ site branches contexts,
      (site, Verdict.insufficient branches contexts) ∉ audited) :
    diagnostics path audited = [] := by
  refine List.filterMap_eq_nil_iff.mpr fun ⟨site, verdict⟩ listed => ?_
  cases verdict with
  | insufficient branches contexts =>
      exact absurd listed (enough site branches contexts)
  | _ => rfl

/-! ## The verdicts and the findings of a file -/

/-- Whether a verdict says of a method exactly what its counts are like. -/
structure Verdict.IsExact (workspace : Workspace) (settings : Settings)
    (index : SpecIndex) (path : String) (site : Site) (verdict : Verdict) :
    Prop where
  insufficient : ∀ branches contexts,
    verdict = .insufficient branches contexts ↔
      IsCounted workspace settings index path site branches contexts ∧
        0 < contexts ∧ contexts < branches
  lacking : ∀ branches contexts, verdict = .insufficient branches contexts →
    2 ≤ branches ∧ 1 ≤ branches - contexts
  covered : ∀ branches contexts, verdict = .covered branches contexts ↔
    IsCounted workspace settings index path site branches contexts ∧
      2 ≤ branches ∧ branches ≤ contexts
  unspecced : ∀ branches, verdict = .unspecced branches ↔
    IsCounted workspace settings index path site branches 0 ∧ 2 ≤ branches
  simple : ∀ branches, verdict = .simple branches →
    branches = countBranches settings.ignoreMemoization site.node ∧
      branches < 2

theorem IsJudged.isExact
    (judged : IsJudged workspace settings index path site verdict) :
    verdict.IsExact workspace settings index path site where
  insufficient := judged.eq_insufficient_iff
  lacking branches contexts isInsufficient := by
    have counts :=
      ((judged.eq_insufficient_iff branches contexts).mp isInsufficient).2
    omega
  covered := judged.eq_covered_iff
  unspecced := judged.eq_unspecced_iff
  simple _ := judged.of_eq_simple

/--
Each method of a file gets one verdict, in the order of the methods, which says
that contexts are lacking exactly if some are counted but fewer than branches.
Where the file can be shown, one finding is made of each such method, with its
counts and what is missing; where it cannot, such a method ends the check, and
without one nothing is found.  There are no verdicts and no findings if the spec
of the file cannot be looked up and is needed.
-/
theorem findInsufficientContexts_exact (textual : settings.IsTextual)
    (known : index.structureName = way.name) (path : String)
    (sites : List Site) :
    (∀ fault, IsRefused workspace settings path sites fault →
      outcome (auditFile workspace settings path sites) index =
          (.error (.path fault), index) ∧
        outcome (findInsufficientContexts workspace settings path sites)
            index =
          (.error (.path fault), index)) ∧
    ((∀ fault, ¬ IsRefused workspace settings path sites fault) →
      ∃ audited later,
        outcome (auditFile workspace settings path sites) index =
          (.ok audited, later) ∧
        audited.map Prod.fst = sites ∧
        (∀ site verdict, (site, verdict) ∈ audited →
          verdict.IsExact workspace settings index path site) ∧
        (∀ file, Finding.filePath workspace.project path = .ok file →
          outcome (findInsufficientContexts workspace settings path sites)
              index =
            (.ok (audited.filterMap (lackFinding? file)), later)) ∧
        (∀ fault, Finding.filePath workspace.project path = .error fault →
          (∃ site branches contexts,
            (site, Verdict.insufficient branches contexts) ∈ audited) →
          outcome (findInsufficientContexts workspace settings path sites)
              index =
            (.error (.path fault), later)) ∧
        ((∀ site branches contexts,
            (site, Verdict.insufficient branches contexts) ∉ audited) →
          outcome (findInsufficientContexts workspace settings path sites)
              index =
            (.ok [], later))) := by
  constructor
  · intro fault refused
    have usable : ∀ site ∈ sites,
        ∃ excluded, settings.excludesMethod site.name = .ok excluded :=
      fun site _ => textual.exists_excludesMethod site.name
    exact ⟨outcome_auditFile_of_isRefused usable refused index,
      outcome_findInsufficientContexts_of_isRefused usable refused index⟩
  · intro goesOn
    rcases exists_auditFile textual known (fun _ => rfl) goesOn with
      ⟨audited, later, ran, order, judged⟩
    unfold findInsufficientContexts
    rw [outcome_bind_of_ok ran]
    refine ⟨audited, later, ran, order,
      fun site verdict member => (judged site verdict member).isExact,
      ?_, ?_, ?_⟩
    · intro file shown
      exact outcome_mapM_finding later shown judged
    · intro fault hidden lacking
      exact outcome_mapM_finding_of_error later hidden judged lacking
    · intro enough
      rw [diagnostics_eq_nil enough]
      rfl

/-- A project whose one spec has a context for one branch of a method. -/
def halfToggleProject : Project where
  disk :=
    .directory [("spec", .directory [("models", .directory
      [("toggle_spec.rb", .file
        "describe '#label' do\n  context 'on' do\n  end\nend\n".toUTF8)])])]
  root := []

/-- The method has two branches and one context, and one finding is made. -/
theorem findInsufficientContexts_exact_toggle :
    let workspace : Workspace := ⟨halfToggleProject, .missing⟩
    let path := "app/models/toggle.rb"
    ∃ later,
      outcome (findInsufficientContexts workspace .standard path [toggleLabel])
          (.empty Structure.byIndent.name) =
        (.ok [lackFinding path toggleLabel 2 1], later) := by
  intro workspace path
  have counted : IsCounted workspace .standard
      (.empty Structure.byIndent.name) path toggleLabel 2 1 := by
    refine isCounted_empty_iff.mpr ⟨by decide +kernel, by decide +kernel,
      ⟨"spec/models/toggle_spec.rb",
        "describe '#label' do\n  context 'on' do\n  end\nend\n",
        by decide +kernel, by decide +kernel, by decide +kernel, ?_⟩,
      by decide +kernel⟩
    decide +kernel
  have whole := @findInsufficientContexts_exact workspace .standard .byIndent
    (.empty Structure.byIndent.name) .standard rfl path [toggleLabel]
  have present : halfToggleProject.hasFile "spec/models/toggle_spec.rb" =
      .ok true := by
    decide +kernel
  have goesOn (fault) :
      ¬ IsRefused workspace .standard path [toggleLabel] fault := by
    rintro ⟨-, ⟨specPath, conventional, failed⟩, -⟩
    cases conventional.symm.trans
      (show Path.specPath? path = some "spec/models/toggle_spec.rb" by
        decide +kernel)
    cases failed.symm.trans present
  rcases whole.2 goesOn with ⟨audited, later, -, order, exact, found, -⟩
  rcases List.map_eq_singleton_iff.mp order with ⟨⟨site, verdict⟩, rfl, rfl⟩
  have lacks : verdict = .insufficient 2 1 :=
    ((exact _ verdict List.mem_cons_self).insufficient 2 1).mpr
      ⟨counted, by decide⟩
  have shown : Finding.filePath halfToggleProject path = .ok path := by
    decide +kernel
  refine ⟨later, (found path shown).trans ?_⟩
  rw [lacks]
  rfl

end SpecAudit.Audit

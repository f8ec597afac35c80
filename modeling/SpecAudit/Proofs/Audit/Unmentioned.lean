import SpecAudit.Proofs.Audit.Parity
import SpecAudit.Proofs.Spec.Mentions

/-!
# Methods that a spec does not mention

The check of existence reports the public methods of a source file that are not
left out and that the spec of the file does not mention, in their order.  What
counts as a mention is said of the blocks of the spec at any depth; the entry
method of a service is mentioned under either kind, so the verdict on it is the
same for both.  The check ends where the spec cannot be looked up.
-/

namespace SpecAudit.Audit

open SpecAudit.Config (Settings)
open SpecAudit.Method (MethodKind Site)
open SpecAudit.Spec (Forest Structure)

/-- Whether the methods of a source file are held against a spec document: the
file is covered and is no spec, and its own spec is there and can be read. -/
structure IsHeldAgainst (workspace : Workspace) (settings : Settings)
    (index : SpecIndex) (path specPath : String) (forest : Forest) : Prop where
  notSpec : Path.isSpecFile path = false
  covered : settings.covers path = .ok true
  conventional : Path.specPath? path = some specPath
  present : workspace.project.hasFile specPath = .ok true
  read : index.given workspace specPath = .ok (some forest)

/-- Whether a fault ends the check of existence: the file is covered and is no
spec, and its own spec cannot be looked up. -/
structure IsUncheckable (workspace : Workspace) (settings : Settings)
    (path : String) (fault : Project.DiskFault) : Prop where
  notSpec : Path.isSpecFile path = false
  covered : settings.covers path = .ok true
  barred : IsBarred workspace path fault

/-- Whether a spec does not mention a method of a source file under the kind of
the method, or under any kind if the method is the entry of a service. -/
structure IsUnmentioned (forest : Forest) (path : String) (site : Site) :
    Prop where
  underKind : ¬ forest.Mentions site.kind.mark site.name
  asEntry : site.name = "call" → Path.isService path = true →
    ∀ kind : MethodKind, ¬ forest.Mentions kind.mark site.name

/-- Whether a method is public, not left out, and not mentioned by the spec that
it is held against. -/
structure IsLacking (workspace : Workspace) (settings : Settings)
    (index : SpecIndex) (path : String) (site : Site) : Prop where
  isPublic : site.isPublic = true
  kept : settings.excludesMethod site.name = .ok false
  missing : ∃ specPath forest,
    IsHeldAgainst workspace settings index path specPath forest ∧
      IsUnmentioned forest path site

variable {workspace : Workspace} {settings : Settings} {way : Structure}
variable {path specPath : String} {forest : Forest} {site : Site}
variable {index : SpecIndex}

/-! ## Mentions of a method -/

theorem isMentioned_eq_false_iff :
    isMentioned forest path site = false ↔ IsUnmentioned forest path site := by
  have mentioned (kind : MethodKind) :
      forest.mentions (some kind) site.name = false ↔
        ¬ forest.Mentions kind.mark site.name := by
    rw [← Spec.Forest.mentions_some_iff, Bool.not_eq_true]
  have either : (∀ kind : MethodKind, ¬ forest.Mentions kind.mark site.name) ↔
      ¬ forest.Mentions site.kind.mark site.name ∧
        ¬ forest.Mentions site.kind.other.mark site.name := by
    refine ⟨fun none' => ⟨none' _, none' _⟩, fun ⟨own, other⟩ kind => ?_⟩
    cases ofSite : site.kind <;> cases kind <;>
      simp_all [MethodKind.other]
  rw [isMentioned, Bool.or_eq_false_iff, mentioned, Bool.and_eq_false_iff,
    Bool.and_eq_false_iff, mentioned]
  constructor
  · rintro ⟨own, (named | service) | other⟩
    · exact ⟨own, fun isEntry => by simp [isEntry, serviceEntry] at named⟩
    · exact ⟨own, fun _ isService => by simp [isService] at service⟩
    · exact ⟨own, fun _ _ => either.mpr ⟨own, other⟩⟩
  · rintro ⟨own, asEntry⟩
    refine ⟨own, ?_⟩
    by_cases isEntry : site.name = "call"
    · cases isService : Path.isService path with
      | false => exact .inl (.inr rfl)
      | true => exact .inr (asEntry isEntry isService site.kind.other)
    · exact .inl (.inl (by simpa [serviceEntry] using isEntry))

/-- The entry of a service is mentioned under one kind if it is under the other. -/
theorem isUnmentioned_entry_iff (isEntry : site.name = "call")
    (isService : Path.isService path = true) :
    IsUnmentioned forest path site ↔
      ∀ kind : MethodKind, ¬ forest.Mentions kind.mark site.name :=
  ⟨fun unmentioned => unmentioned.asEntry isEntry isService,
    fun none' => ⟨none' _, fun _ _ => none'⟩⟩

/-! ## The spec of a file -/

theorem IsHeldAgainst.unique {specPath' : String} {forest' : Forest}
    (one : IsHeldAgainst workspace settings index path specPath forest)
    (other : IsHeldAgainst workspace settings index path specPath' forest') :
    specPath = specPath' ∧ forest = forest' := by
  cases one.conventional.symm.trans other.conventional
  cases one.read.symm.trans other.read
  exact ⟨rfl, rfl⟩

/-- An index that has taken in nothing holds a file against what its spec is
now, if it can be read. -/
theorem isHeldAgainst_empty_iff :
    IsHeldAgainst workspace settings (.empty way.name) path specPath forest ↔
      Path.isSpecFile path = false ∧ settings.covers path = .ok true ∧
        Path.specPath? path = some specPath ∧
        workspace.project.hasFile specPath = .ok true ∧
        ∃ text, workspace.project.text? specPath = some text ∧
          Spec.forestOf workspace.grammar way text = forest := by
  have given : (SpecIndex.empty way.name).given workspace specPath =
      .ok (some forest) ↔
        ∃ text, workspace.project.text? specPath = some text ∧
          Spec.forestOf workspace.grammar way text = forest := by
    rw [SpecIndex.isCurrent_empty.given specPath, forestNow, Except.ok.injEq,
      Option.map_eq_some_iff]
  rw [← given]
  constructor
  · rintro ⟨notSpec, covered, conventional, present, read⟩
    exact ⟨notSpec, covered, conventional, present, read⟩
  · rintro ⟨notSpec, covered, conventional, present, read⟩
    exact ⟨notSpec, covered, conventional, present, read⟩

theorem IsHeldAgainst.isReported_iff
    (held : IsHeldAgainst workspace settings index path specPath forest) :
    isReported settings forest path site = true ↔
      IsLacking workspace settings index path site := by
  have kept : ((settings.excludesMethod site.name).toOption == some false) =
      true ↔ settings.excludesMethod site.name = .ok false := by
    cases settings.excludesMethod site.name <;> simp [Except.toOption]
  rw [isReported, Bool.and_eq_true, Bool.and_eq_true, kept, Bool.not_eq_true',
    isMentioned_eq_false_iff]
  constructor
  · rintro ⟨⟨isPublic, kept⟩, unmentioned⟩
    exact ⟨isPublic, kept, specPath, forest, held, unmentioned⟩
  · rintro ⟨isPublic, kept, specPath', forest', held', unmentioned⟩
    rcases held.unique held' with ⟨-, rfl⟩
    exact ⟨⟨isPublic, kept⟩, unmentioned⟩

/-- Of a file that is held against no spec, nothing is reported. -/
theorem outcome_findMissingSpecs_of_not_held (textual : settings.IsTextual)
    (known : index.structureName = way.name)
    (checkable : ∀ fault, ¬ IsUncheckable workspace settings path fault)
    (unheld : ∀ specPath forest,
      ¬ IsHeldAgainst workspace settings index path specPath forest)
    (sites : List Site) :
    ∃ later, outcome (findMissingSpecs workspace settings path sites) index =
      (.ok [], later) := by
  rcases textual.exists_covers path with ⟨covered, covers⟩
  have checked : outcome (isToBeChecked settings path) index =
      (.ok (!Path.isSpecFile path && covered), index) := by
    rw [isToBeChecked, covers]
    cases Path.isSpecFile path <;> rfl
  unfold findMissingSpecs
  rw [outcome_bind_of_ok checked]
  cases notSpec : Path.isSpecFile path with
  | true => exact ⟨_, rfl⟩
  | false =>
      cases covered with
      | false => exact ⟨_, rfl⟩
      | true =>
          cases conventional : Path.specPath? path with
          | none => exact ⟨_, rfl⟩
          | some specPath =>
              have free (fault) : ¬ IsBarred workspace path fault :=
                fun barred => checkable fault ⟨notSpec, covers, barred⟩
              rcases exists_hasFile_of_not_isBarred free conventional with
                ⟨present, looked⟩
              simp only [Bool.not_false, Bool.and_true, Bool.not_true,
                Bool.false_eq_true, if_false]
              rw [looked, outcome_bind_of_ok (outcome_ofDisk_ok present index)]
              cases present with
              | false => exact ⟨index, rfl⟩
              | true =>
                  rcases SpecIndex.exists_given workspace known specPath with
                    ⟨blocks, read⟩
                  cases blocks with
                  | none =>
                      refine ⟨index.keep specPath none, ?_⟩
                      simp only [Bool.not_true, Bool.false_eq_true, if_false]
                      rw [outcome_bind_of_ok
                        (SpecIndex.outcome_forest_of_ok read)]
                      rfl
                  | some forest =>
                      exact absurd
                        ⟨notSpec, covers, conventional, looked, read⟩
                        (unheld specPath forest)

/-- Where no method is to be reported, none is, whether or not the file can be
shown. -/
theorem outcome_mapM_missingSpec_of_none {sites : List Site}
    (usable : ∀ site ∈ sites,
      ∃ excluded, settings.excludesMethod site.name = .ok excluded)
    (none' : ∀ site ∈ sites, isReported settings forest path site = false) :
    outcome
        (List.filterMap id <$>
          sites.mapM (missingSpec? workspace settings path specPath forest))
        index =
      (.ok [], index) := by
  have each : ∀ site ∈ sites,
      outcome (missingSpec? workspace settings path specPath forest site)
          index = (.ok none, index) := by
    intro site member
    rw [outcome_missingSpec (usable site member), none' site member]
    rfl
  rw [map_eq_pure_bind, outcome_bind_of_ok (outcome_mapM each)]
  simp

/-- Entry methods of a service lack a mention alike, whatever their kinds. -/
theorem IsLacking.of_entry {other : Site} (isEntry : site.name = "call")
    (isService : Path.isService path = true) (names : other.name = site.name)
    (visibilities : other.visibility = site.visibility)
    (lacking : IsLacking workspace settings index path site) :
    IsLacking workspace settings index path other := by
  rcases lacking with ⟨isPublic, kept, specPath, forest, held, unmentioned⟩
  have isEntry' : other.name = "call" := names.trans isEntry
  have unmentioned' : IsUnmentioned forest path other := by
    rw [isUnmentioned_entry_iff isEntry isService] at unmentioned
    rw [isUnmentioned_entry_iff isEntry' isService, names]
    exact unmentioned
  refine ⟨?_, names ▸ kept, specPath, forest, held, unmentioned'⟩
  rw [Site.isPublic, visibilities]
  exact isPublic

/-! ## The findings about a file -/

/--
The methods of a file that are reported are those that are public, not left out
and not mentioned at any depth of the spec that the file is held against.  Where
the file can be shown, one finding is made of each of them, in their order;
where it cannot, the first of them ends the check; without one nothing is found.
The check ends at once if the spec cannot be looked up.  The verdict on the entry
method of a service does not depend on its kind, and what is mentioned without a
kind is what is mentioned under one of the two.
-/
theorem findMissingSpecs_exact (textual : settings.IsTextual)
    (known : index.structureName = way.name) (path : String)
    (sites : List Site) :
    (∀ fault, IsUncheckable workspace settings path fault →
      outcome (findMissingSpecs workspace settings path sites) index =
        (.error (.path fault), index)) ∧
    ((∀ fault, ¬ IsUncheckable workspace settings path fault) →
      ∃ (isLacking : Site → Bool) (later : SpecIndex),
        (∀ site, isLacking site = true ↔
          IsLacking workspace settings index path site) ∧
        (∀ file specPath, Finding.filePath workspace.project path = .ok file →
          Path.specPath? path = some specPath →
          outcome (findMissingSpecs workspace settings path sites) index =
            (.ok ((sites.filter isLacking).map
              (unmentionedFinding path specPath file)), later)) ∧
        (∀ fault, Finding.filePath workspace.project path = .error fault →
          (∃ site ∈ sites, isLacking site = true) →
          outcome (findMissingSpecs workspace settings path sites) index =
            (.error (.path fault), later)) ∧
        ((∀ site ∈ sites, isLacking site = false) →
          outcome (findMissingSpecs workspace settings path sites) index =
            (.ok [], later))) ∧
    (∀ site : Site, site.name = "call" → Path.isService path = true →
      ∀ kind, IsLacking workspace settings index path
          { site with kind := kind } ↔
        IsLacking workspace settings index path site) ∧
    ∀ (forest : Forest) (name : String),
      forest.mentions none name = true ↔
        forest.mentions (some .instanceMethod) name = true ∨
          forest.mentions (some .classMethod) name = true := by
  refine ⟨fun fault unchecked => outcome_findMissingSpecs_of_isBarred
      unchecked.covered unchecked.barred index unchecked.notSpec,
    fun checkable => ?_, fun site isEntry isService kind =>
      ⟨.of_entry isEntry isService rfl rfl, .of_entry isEntry isService rfl rfl⟩,
    fun _ _ => Spec.Forest.mentions_none_iff⟩
  by_cases held : ∃ specPath forest,
      IsHeldAgainst workspace settings index path specPath forest
  · rcases held with ⟨specPath, forest, held⟩
    have checked :
        outcome (findMissingSpecs workspace settings path sites) index = _ :=
      outcome_findMissingSpecs held.notSpec held.covered held.conventional
        held.present held.read
    have usable : ∀ site ∈ sites,
        ∃ excluded, settings.excludesMethod site.name = .ok excluded :=
      fun site _ => textual.exists_excludesMethod site.name
    refine ⟨isReported settings forest path,
      index.keep specPath (some forest), fun _ => held.isReported_iff,
      ?_, ?_, ?_⟩
    · intro file specPath' shown conventional
      cases held.conventional.symm.trans conventional
      exact checked.trans (outcome_mapM_missingSpec usable shown)
    · intro fault hidden lacking
      exact checked.trans
        (outcome_mapM_missingSpec_of_error usable hidden lacking)
    · intro none'
      exact checked.trans (outcome_mapM_missingSpec_of_none usable none')
  · rcases outcome_findMissingSpecs_of_not_held textual known checkable
      (fun specPath forest held' => held ⟨specPath, forest, held'⟩) sites with
      ⟨later, nothing⟩
    have exact' (site : Site) : false = true ↔
        IsLacking workspace settings index path site := by
      refine iff_of_false Bool.false_ne_true ?_
      rintro ⟨-, -, specPath, forest, held', -⟩
      exact held ⟨specPath, forest, held'⟩
    refine ⟨fun _ => false, later, exact', ?_, ?_, fun _ => nothing⟩
    · intro file specPath shown conventional
      rw [nothing, List.filter_eq_nil_iff.mpr (by simp)]
      rfl
    · rintro fault hidden ⟨site, -, lacking⟩
      cases lacking

/-- The spec of a service that names its entry under one kind. -/
def paymentSpec : String :=
  "describe Payment do\n  describe '.call' do\n  end\n"
    ++ "  it 'tests #refund' do\n  end\nend\n"

/-- A project with that spec alone. -/
def paymentProject : Project where
  disk :=
    .directory [("spec", .directory [("services", .directory
      [("payment_spec.rb", .file paymentSpec.toUTF8)])])]
  root := []

/-- Of a service, the entry is mentioned under the other kind, one method is
tested, and the one that is not mentioned is reported. -/
theorem findMissingSpecs_exact_payment :
    let workspace : Workspace := ⟨paymentProject, .missing⟩
    let path := "app/services/payment.rb"
    let sites := [{ toggleLabel with name := "call" },
      { toggleLabel with name := "refund" }, toggleLabel]
    ∃ later,
      outcome (findMissingSpecs workspace .standard path sites)
          (.empty Structure.byIndent.name) =
        (.ok [unmentionedFinding path "spec/services/payment_spec.rb" path
          toggleLabel], later) := by
  intro workspace path sites
  have conventional :
      Path.specPath? path = some "spec/services/payment_spec.rb" := by
    decide +kernel
  have held : IsHeldAgainst workspace .standard
      (.empty Structure.byIndent.name) path "spec/services/payment_spec.rb"
      (Spec.forestOf .missing .byIndent paymentSpec) :=
    isHeldAgainst_empty_iff.mpr ⟨by decide +kernel, by decide +kernel,
      conventional, by decide +kernel, paymentSpec, by decide +kernel, rfl⟩
  have whole := @findMissingSpecs_exact workspace .standard .byIndent
    (.empty Structure.byIndent.name) .standard rfl path sites
  have checkable (fault) : ¬ IsUncheckable workspace .standard path fault := by
    rintro ⟨-, -, specPath, conventional', failed⟩
    cases conventional.symm.trans conventional'
    cases held.present.symm.trans failed
  rcases whole.2.1 checkable with ⟨isLacking, later, exact', found, -⟩
  have shown : Finding.filePath paymentProject path = .ok path := by
    decide +kernel
  have lacking : sites.filter isLacking = [toggleLabel] := by
    have same : isLacking = isReported .standard
        (Spec.forestOf .missing .byIndent paymentSpec) path := by
      funext site
      rw [Bool.eq_iff_iff, exact', held.isReported_iff]
    have reported : sites.map (isReported .standard
        (Spec.forestOf .missing .byIndent paymentSpec) path) =
          [false, false, true] := by
      decide +kernel
    simp only [sites, List.map_cons, List.map_nil, List.cons.injEq] at reported
    simp [sites, same, reported]
  refine ⟨later, (found path _ shown conventional).trans ?_⟩
  rw [lacking]
  rfl

end SpecAudit.Audit

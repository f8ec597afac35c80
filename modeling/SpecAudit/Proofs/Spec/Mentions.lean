import SpecAudit.Proofs.Spec.Outermost
import SpecAudit.Proofs.Spec.VerbPhrase

/-!
# What mentions a method

Only outermost groups are collected for a method, and a kind changes which ones
those are, but whether there is one does not depend on where it stands.  So a
document mentions a method of a kind exactly if some block at any depth does: a
group of which the subject is the name, bare or behind the mark of the kind, or
a scenario of which the title tests the name.  Without a kind, a mention under
either kind is one.
-/

namespace SpecAudit.Spec

open SpecAudit.Method (MethodKind)
open SpecAudit.Text

/-- Whether a block is a group of which the subject, trimmed, is a name, bare or
behind a mark. -/
def Block.IsNamed (mark name : String) (block : Block) : Prop :=
  block.isGroup = true ∧ ∃ subject, block.subject? = some subject ∧
    (trimmed subject = name ∨ trimmed subject = mark ++ name)

/-- Whether a block is a scenario of which the title tests a name. -/
def Block.Tests (name : String) (block : Block) : Prop :=
  block.isGroup = false ∧
    ∃ start stop, TestsAt name.toList block.title.toList start stop

/-- Whether a document holds, at any depth, a block that names a method behind a
mark or without one, or that tests it. -/
def Forest.Mentions (mark name : String) (forest : Forest) : Prop :=
  ∃ block ∈ forest.allBlocks, block.IsNamed mark name ∨ block.Tests name

variable {kind : MethodKind} {name : String} {block : Block} {forest : Forest}

namespace Block

theorem describes_some_iff :
    block.describes (some kind) name = true ↔ block.IsNamed kind.mark name := by
  rw [describes, Bool.and_eq_true, IsNamed]
  refine and_congr_right fun _ => ?_
  cases block.subject? with
  | none => simp [subjectMatches]
  | some subject =>
      cases kind <;> simp [subjectMatches, kindMarks, MethodKind.mark]

theorem describes_none_iff :
    block.describes none name = true ↔
      ∃ kind, block.describes (some kind) name = true := by
  constructor
  · intro describes
    rw [Block.describes, Bool.and_eq_true] at describes
    rcases describes with ⟨isGroup, named⟩
    cases found : block.subject? with
    | none =>
        rw [found] at named
        cases named
    | some subject =>
        simp only [found, subjectMatches, kindMarks, List.map_cons,
          List.map_nil, List.contains_iff_mem, List.mem_cons,
          List.not_mem_nil, or_false, String.empty_append] at named
        have isNamed (kind : MethodKind)
            (spelled : trimmed subject = name ∨
              trimmed subject = kind.mark ++ name) :
            ∃ kind, block.describes (some kind) name = true :=
          ⟨kind, describes_some_iff.mpr ⟨isGroup, subject, found, spelled⟩⟩
        rcases named with bare | hash | dot
        · exact isNamed .instanceMethod (.inl bare)
        · exact isNamed .instanceMethod (.inr hash)
        · exact isNamed .classMethod (.inr dot)
  · rintro ⟨kind, describes⟩
    exact describes_none describes

end Block

namespace Forest

theorem hasVerbScenario_iff_tests :
    forest.hasVerbScenario name = true ↔
      ∃ block ∈ forest.allBlocks, block.Tests name := by
  simp only [hasVerbScenario_iff, verbSpan?, isSome_findVerbPhrase?_iff,
    Block.Tests]

theorem mentions_iff (kind : Option MethodKind) :
    forest.mentions kind name = true ↔
      ∃ block ∈ forest.allBlocks,
        block.describes kind name = true ∨ block.Tests name := by
  have groups : (!(forest.methodGroups kind name).isEmpty) = true ↔
      ∃ block ∈ forest.allBlocks, block.describes kind name = true := by
    rw [Bool.not_eq_true', ← Bool.not_eq_true, List.isEmpty_iff,
      methodGroups_eq_nil_iff]
    simp
  rw [mentions, Bool.or_eq_true, groups, hasVerbScenario_iff_tests]
  simp only [and_or_left, exists_or]

/-- A document mentions a method of a kind if a block at any depth does. -/
theorem mentions_some_iff :
    forest.mentions (some kind) name = true ↔
      forest.Mentions kind.mark name := by
  simp only [mentions_iff, Block.describes_some_iff, Mentions]

/-- Without a kind, what counts are the mentions under either kind. -/
theorem mentions_none_iff :
    forest.mentions none name = true ↔
      forest.mentions (some .instanceMethod) name = true ∨
        forest.mentions (some .classMethod) name = true := by
  have kinds : forest.mentions none name = true ↔
      ∃ kind, forest.mentions (some kind) name = true := by
    simp only [mentions_iff, Block.describes_none_iff]
    constructor
    · rintro ⟨block, member, ⟨kind, describes⟩ | tests⟩
      · exact ⟨kind, block, member, .inl describes⟩
      · exact ⟨.instanceMethod, block, member, .inr tests⟩
    · rintro ⟨kind, block, member, describes | tests⟩
      · exact ⟨block, member, .inl ⟨kind, describes⟩⟩
      · exact ⟨block, member, .inr tests⟩
  rw [kinds]
  constructor
  · rintro ⟨kind, mentioned⟩
    cases kind with
    | instanceMethod => exact .inl mentioned
    | classMethod => exact .inr mentioned
  · rintro (mentioned | mentioned)
    · exact ⟨_, mentioned⟩
    · exact ⟨_, mentioned⟩

end Forest

end SpecAudit.Spec

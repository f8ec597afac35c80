import SpecAudit.Method.Site
import SpecAudit.Proofs.Method.Modifier

/-!
# What decides the visibility of a method

In a tree that is laid out as its text, at most one statement of a class or module
covers a definition there, and the definition is that statement or stands in it.
Such a definition has the visibility that its statement gives it, or else the one
that the statements before it leave.  A definition at the head of its class, as in
the expression for the class above it, stands in no statement: the bare modifiers
of the whole body decide, whether they come before it or after it.
-/

namespace SpecAudit.Method

open SpecAudit.Syntax

variable {statement owner : Node} {modifier : Visibility}

/-! ## Definitions and the statements around them -/

/-- A definition of a method at its place in a tree that is laid out as its
text. -/
structure IsMethodIn (root : Node) (occurrence : Occurrence) : Prop where
  laidOut : root.IsLaidOut
  member : occurrence ∈ root.occurrences []
  isMethod : occurrence.node.type = "method"

/-- Whether a definition is a statement of the class or module around it or stands
in one, if there is a class or module around it. -/
def StandsInBody (occurrence : Occurrence) : Prop :=
  ∀ owner ∈ enclosingType? occurrence.ancestors,
    ∃ statement ∈ owner.statements,
      occurrence.node ∈ statement :: statement.descendants

/-- What the layout of a tree tells of a definition in a class or module. -/
structure Placed (owner : Node) (occurrence : Occurrence) : Prop where
  laidOut : owner.IsLaidOut
  occupied : occurrence.node.label.start < occurrence.node.label.stop
  enclosed : enclosingType? occurrence.ancestors = some owner
  visible : visibility occurrence =
    visibilityAmong occurrence.node .isPublic owner.statements
  /-- A statement that covers the definition is on the way to it. -/
  onTheWay : ∀ statement ∈ owner.statements,
    statement.covers occurrence.node = true →
    statement ∈ occurrence.node :: occurrence.ancestors ∧
      occurrence.node ∈ statement :: statement.descendants

theorem IsMethodIn.placed {root : Node} {occurrence : Occurrence}
    (defined : IsMethodIn root occurrence)
    (enclosed : enclosingType? occurrence.ancestors = some owner) :
    Placed owner occurrence := by
  rcases defined with ⟨laidOut, member, isMethod⟩
  have around := List.mem_of_find?_eq_some enclosed
  have noBody : occurrence.node.isContainer = false := by
    rw [Node.isContainer, isMethod]
    decide
  have whole : (Occurrence.mk root []).node.IsLaidOut := laidOut
  have lies : occurrence ∈ (Occurrence.mk root []).below := member
  have own := Occurrence.isLaidOut_of_standsIn whole
    (List.mem_cons_of_mem _ lies)
  have occupied := own.occupied _ (Node.mem_nodes_self _) isMethod
  rcases Occurrence.exists_place_of_mem_ancestors lies around with
    none | ⟨place, stands, rfl, below⟩
  · cases none
  have part := Occurrence.isLaidOut_of_standsIn whole stands
  refine ⟨part, occupied, enclosed, by simp [visibility, isMethod, enclosed], ?_⟩
  intro statement isStatement covered
  rcases Occurrence.exists_place_of_covers part below occupied noBody
      isStatement covered with ⟨inside, rfl, stands⟩
  exact ⟨stands.mem_ancestors, stands.mem_subtree⟩

namespace Placed

variable {occurrence : Occurrence} {before after : List Node}

theorem covers_iff (placed : Placed owner occurrence)
    (isStatement : statement ∈ owner.statements) :
    statement.covers occurrence.node = true ↔
      occurrence.node ∈ statement :: statement.descendants :=
  ⟨fun covered => (placed.onTheWay statement isStatement covered).2,
    (placed.laidOut.of_mem_statements isStatement).covers_of_mem_subtree⟩

theorem standsInBody_iff (placed : Placed owner occurrence) :
    StandsInBody occurrence ↔
      ∃ statement ∈ owner.statements,
        statement.covers occurrence.node = true := by
  simp only [StandsInBody, placed.enclosed, Option.mem_some_iff]
  constructor
  · intro stands
    rcases stands owner rfl with ⟨statement, isStatement, inside⟩
    exact ⟨statement, isStatement, (placed.covers_iff isStatement).mpr inside⟩
  · rintro ⟨statement, isStatement, covered⟩ other rfl
    exact ⟨statement, isStatement, (placed.covers_iff isStatement).mp covered⟩

/-- Only one statement covers the definition. -/
theorem not_covers (placed : Placed owner occurrence)
    (body : owner.statements = before ++ statement :: after)
    (covered : statement.covers occurrence.node = true) :
    ∀ other ∈ before ++ after, other.covers occurrence.node = false := by
  have ordered := placed.laidOut.statements_ordered
  rw [body, List.pairwise_append, List.pairwise_cons] at ordered
  rcases ordered with ⟨-, ⟨behind, -⟩, across⟩
  intro other member
  rcases List.mem_append.mp member with earlier | later
  · by_contra both
    have apart := (across other earlier statement List.mem_cons_self).not_covers
      placed.occupied (Bool.ne_false_iff.mp both)
    exact Bool.false_ne_true (apart.symm.trans covered)
  · exact (behind other later).not_covers placed.occupied covered

theorem visibility_eq_of_covers (placed : Placed owner occurrence)
    (body : owner.statements = before ++ statement :: after)
    (covered : statement.covers occurrence.node = true) :
    visibility occurrence =
      (wrappingModifier? statement occurrence.node).getD
        (visibilityAfter before) := by
  rw [placed.visible, body]
  exact visibilityAmong_of_covers
    (fun other earlier => placed.not_covers body covered other
      (List.mem_append_left _ earlier)) covered

theorem visibility_eq_of_not_standsInBody (placed : Placed owner occurrence)
    (outside : ¬StandsInBody occurrence) :
    visibility occurrence = visibilityAfter owner.statements := by
  rw [placed.visible]
  apply visibilityAmong_of_not_covers
  intro statement isStatement
  by_contra covered
  exact outside (placed.standsInBody_iff.mpr
    ⟨statement, isStatement, Bool.ne_false_iff.mp covered⟩)

theorem wrappingModifier?_iff (placed : Placed owner occurrence)
    (isStatement : statement ∈ owner.statements)
    (inside : occurrence.node ∈ statement :: statement.descendants) :
    wrappingModifier? statement occurrence.node = some modifier ↔
      Wraps modifier statement occurrence.node :=
  wrappingModifier?_eq_some_iff (placed.laidOut.of_mem_statements isStatement)
    (Node.mem_nodes_of_mem_subtree inside)

end Placed

/-! ## Definitions in a body -/

/-- Whether a definition is a given statement of the class or module around it or
stands in that statement. -/
structure StandsAt (owner : Node) (before : List Node) (statement : Node)
    (after : List Node) (occurrence : Occurrence) : Prop where
  enclosed : enclosingType? occurrence.ancestors = some owner
  body : owner.statements = before ++ statement :: after
  inside : occurrence.node ∈ statement :: statement.descendants

/-- The visibility of a definition at one of the statements around it. -/
theorem StandsAt.visibility_eq {root : Node} {occurrence : Occurrence}
    {before after : List Node} (defined : IsMethodIn root occurrence)
    (stands : StandsAt owner before statement after occurrence) :
    statement.covers occurrence.node = true ∧
      (∀ modifier, wrappingModifier? statement occurrence.node = some modifier ↔
        Wraps modifier statement occurrence.node) ∧
      visibility occurrence =
        (wrappingModifier? statement occurrence.node).getD
          (visibilityAfter before) := by
  have placed := defined.placed stands.enclosed
  have isStatement : statement ∈ owner.statements := by
    rw [stands.body]
    exact List.mem_append_right _ List.mem_cons_self
  have covered := (placed.covers_iff isStatement).mpr stands.inside
  exact ⟨covered,
    fun _ => placed.wrappingModifier?_iff isStatement stands.inside,
    placed.visibility_eq_of_covers stands.body covered⟩

/--
A definition in the body of its class or module is covered by one statement of it,
and lies on the way there.  It has the visibility that the statement gives to it as
an argument of a modifier, or else the visibility that the statements before leave.
So any other body that wraps the definition alike, after statements with the same
bare modifiers, gives it the same visibility, whatever comes after.
-/
theorem visibility_of_standsInBody {root : Node} {occurrence : Occurrence}
    (defined : IsMethodIn root occurrence)
    (enclosed : enclosingType? occurrence.ancestors = some owner)
    (stands : StandsInBody occurrence) :
    ∃ before statement after,
      StandsAt owner before statement after occurrence ∧
        statement.covers occurrence.node = true ∧
        (∀ other ∈ before ++ after, other.covers occurrence.node = false) ∧
        statement ∈ occurrence.node :: occurrence.ancestors ∧
        (∀ modifier, Wraps modifier statement occurrence.node →
          visibility occurrence = modifier) ∧
        ((∀ modifier, ¬Wraps modifier statement occurrence.node) →
          Leaves before (visibility occurrence)) ∧
        ∀ (root' owner' statement' : Node) (before' after' : List Node)
          (changed : Occurrence), IsMethodIn root' changed →
          StandsAt owner' before' statement' after' changed →
          before'.filterMap bareModifier? = before.filterMap bareModifier? →
          (∀ modifier, Wraps modifier statement' changed.node ↔
            Wraps modifier statement occurrence.node) →
          visibility changed = visibility occurrence := by
  have placed := defined.placed enclosed
  rcases stands owner enclosed with ⟨statement, isStatement, inside⟩
  rcases List.append_of_mem isStatement with ⟨before, after, body⟩
  have standsAt : StandsAt owner before statement after occurrence :=
    ⟨enclosed, body, inside⟩
  rcases standsAt.visibility_eq defined with ⟨covered, wraps, given⟩
  refine ⟨before, statement, after, standsAt, covered,
    placed.not_covers body covered,
    (placed.onTheWay statement isStatement covered).1, ?_, ?_, ?_⟩
  · intro modifier wrapped
    rw [given, (wraps modifier).mpr wrapped]
    rfl
  · intro unwrapped
    have none : wrappingModifier? statement occurrence.node = none :=
      Option.eq_none_iff_forall_ne_some.mpr fun modifier found =>
        unwrapped modifier ((wraps modifier).mp found)
    rw [given, none]
    exact leaves_iff.mpr rfl
  · intro root' owner' statement' before' after' changed defined' standsAt' bare same
    rcases standsAt'.visibility_eq defined' with ⟨-, wraps', given'⟩
    have wrapped : wrappingModifier? statement' changed.node =
        wrappingModifier? statement occurrence.node :=
      Option.ext fun modifier => by rw [wraps', same, ← wraps]
    rw [given', given, wrapped, visibilityAfter, bare, ← visibilityAfter]

/-- A named node, with its number, its type, the field it fills, its place and its
text. -/
def spannedNode (id : Nat) (type : String) (field? : Option String)
    (start stop : Nat) (text : String) (children : List Node) : Node :=
  .node { (default : Label) with
      id, type, field?, named := true, start, stop, text } children

/-- A definition as the argument of a modifier. -/
def privateRun : Node :=
  spannedNode 5 "call" none 12 33 "" [
    spannedNode 6 "identifier" "method" 12 19 "private" [],
    spannedNode 7 "argument_list" "arguments" 20 33 "" [
      spannedNode 8 "method" none 20 33 "" [
        spannedNode 9 "identifier" "name" 24 27 "run" []]]]

/-- A class with a private method and the statements after it, which end at some
byte. -/
def jobClass (stop : Nat) (later : List Node) : Node :=
  spannedNode 1 "class" none 0 (stop + 4) "" [
    spannedNode 2 "constant" "name" 6 9 "Job" [],
    spannedNode 3 "body_statement" "body" 12 stop "" (privateRun :: later)]

/-- The file of a class, which ends five bytes after some byte. -/
def fileOf (stop : Nat) (content : Node) : Node :=
  spannedNode 0 "program" none 0 (stop + 5) "" [content]

/-- The first method of a file, at its place. -/
def methodOf (file : Node) : Occurrence :=
  ((file.occurrences []).find? (·.node.type == "method")).getD ⟨file, []⟩

/-- A bare modifier after the method. -/
def publicLine : Node :=
  spannedNode 10 "identifier" none 36 42 "public" []

/-- The file of the class that ends with its method. -/
def jobFile : Node :=
  fileOf 33 (jobClass 33 [])

/-- The file of the class with a bare modifier after its method. -/
def longerJobFile : Node :=
  fileOf 42 (jobClass 42 [publicLine])

theorem isMethodIn_jobFile : IsMethodIn jobFile (methodOf jobFile) :=
  ⟨by decide +kernel, List.mem_of_getElem? (i := 6) rfl, by decide +kernel⟩

theorem isMethodIn_longerJobFile :
    IsMethodIn longerJobFile (methodOf longerJobFile) :=
  ⟨by decide +kernel, List.mem_of_getElem? (i := 6) rfl, by decide +kernel⟩

theorem standsInBody_jobFile : StandsInBody (methodOf jobFile) := by
  intro owner isOwner
  cases isOwner
  exact ⟨privateRun, by decide +kernel, by decide +kernel⟩

theorem visibility_of_standsInBody_job :
    visibility (methodOf jobFile) = .isPrivate ∧
      visibility (methodOf longerJobFile) = .isPrivate := by
  have enclosed : enclosingType? (methodOf jobFile).ancestors =
      some (jobClass 33 []) := by
    decide +kernel
  have standsLonger : StandsAt (jobClass 42 [publicLine]) [] privateRun
      [publicLine] (methodOf longerJobFile) :=
    ⟨by decide +kernel, by decide +kernel, by decide +kernel⟩
  have wraps : Wraps .isPrivate privateRun (methodOf jobFile).node :=
    ⟨by decide +kernel, by decide +kernel, by decide +kernel, by decide +kernel⟩
  rcases visibility_of_standsInBody isMethodIn_jobFile enclosed
      standsInBody_jobFile with
    ⟨before, statement, after, standsAt, -, -, -, given, -, unchanged⟩
  have body : (jobClass 33 []).statements = [privateRun] := by
    decide +kernel
  have sole := standsAt.body.symm.trans body
  rcases List.append_eq_singleton_iff.mp sole with ⟨rfl, same⟩ | ⟨-, none⟩
  · cases same
    have isPrivate := given .isPrivate wraps
    have kept := unchanged _ _ _ _ _ (methodOf longerJobFile)
      isMethodIn_longerJobFile standsLonger rfl fun _ => Iff.rfl
    exact ⟨isPrivate, kept.trans isPrivate⟩
  · cases none

/-! ## What comes after a definition -/

/-- Whether a definition stands at two places at which the statements around it
agree, as far as they start before the definition ends. -/
structure AgreesBefore (occurrence changed : Occurrence) : Prop where
  node : changed.node = occurrence.node
  statements :
    (enclosingType? changed.ancestors).map
        (fun owner => startedBy occurrence.node owner.statements) =
      (enclosingType? occurrence.ancestors).map
        (fun owner => startedBy occurrence.node owner.statements)

namespace Placed

variable {occurrence : Occurrence}

theorem standsInBody_iff_startedBy (placed : Placed owner occurrence) :
    StandsInBody occurrence ↔
      ∃ statement ∈ startedBy occurrence.node owner.statements,
        statement.covers occurrence.node = true := by
  rw [placed.standsInBody_iff]
  constructor
  · rintro ⟨statement, isStatement, covered⟩
    have bounds := Node.covers_iff.mp covered
    have occupied := placed.occupied
    have early : statement.label.start < occurrence.node.label.stop := by
      omega
    exact ⟨statement,
      List.mem_filter.mpr ⟨isStatement, decide_eq_true early⟩, covered⟩
  · rintro ⟨statement, started, covered⟩
    exact ⟨statement, List.mem_of_mem_filter started, covered⟩

theorem visibility_eq_startedBy (placed : Placed owner occurrence)
    (stands : StandsInBody occurrence) :
    visibility occurrence =
      visibilityAmong occurrence.node .isPublic
        (startedBy occurrence.node owner.statements) := by
  rw [placed.visible]
  refine (visibilityAmong_startedBy (fun statement isStatement => ?_)
    placed.laidOut.statements_ordered placed.occupied
    (placed.standsInBody_iff.mp stands) _).symm
  exact (placed.laidOut.of_mem_statements isStatement).forward statement
    (Node.mem_nodes_self statement)

variable {owner' : Node} {changed : Occurrence}

theorem standsInBody_iff_of_agrees (placed : Placed owner occurrence)
    (placed' : Placed owner' changed) (same : changed.node = occurrence.node)
    (started : startedBy occurrence.node owner'.statements =
      startedBy occurrence.node owner.statements) :
    StandsInBody changed ↔ StandsInBody occurrence := by
  rw [placed'.standsInBody_iff_startedBy, placed.standsInBody_iff_startedBy, same,
    started]

theorem visibility_eq_of_agrees (placed : Placed owner occurrence)
    (placed' : Placed owner' changed) (same : changed.node = occurrence.node)
    (started : startedBy occurrence.node owner'.statements =
      startedBy occurrence.node owner.statements)
    (stands : StandsInBody occurrence) :
    visibility changed = visibility occurrence := by
  have stands' := (placed.standsInBody_iff_of_agrees placed' same started).mpr stands
  rw [placed'.visibility_eq_startedBy stands', placed.visibility_eq_startedBy stands,
    same, started]

end Placed

/--
What comes after a definition in the class or module around it does not change the
visibility of the definition, if the definition stands in the body there.  Outside
of the body, where no statement covers it, all bare modifiers of the body count.
-/
theorem visibility_of_agreesBefore {root root' : Node}
    {occurrence changed : Occurrence}
    (laidOut : root.IsLaidOut) (member : occurrence ∈ root.occurrences [])
    (laidOut' : root'.IsLaidOut) (member' : changed ∈ root'.occurrences [])
    (defines : isDefinition occurrence.node = true)
    (agrees : AgreesBefore occurrence changed) :
    (occurrence.node.type = "singleton_method" ∨ StandsInBody occurrence →
        visibility changed = visibility occurrence) ∧
      (occurrence.node.type = "method" → ¬StandsInBody occurrence →
        ∃ owner, enclosingType? changed.ancestors = some owner ∧
          Leaves owner.statements (visibility changed)) := by
  rcases agrees with ⟨same, agree⟩
  by_cases singleton : occurrence.node.type = "singleton_method"
  · have noMethod : occurrence.node.type ≠ "method" := by
      rw [singleton]
      decide
    exact ⟨fun _ => by simp [visibility, same, singleton],
      fun isMethod => absurd isMethod noMethod⟩
  have isMethod : occurrence.node.type = "method" := by
    simpa [isDefinition, singleton] using defines
  have isMethod' : changed.node.type = "method" := by rw [same, isMethod]
  cases enclosed : enclosingType? occurrence.ancestors with
  | none =>
      have free : enclosingType? changed.ancestors = none := by
        rwa [enclosed, Option.map_none, Option.map_eq_none_iff] at agree
      have inBody : StandsInBody occurrence := by
        intro owner isOwner
        rw [enclosed] at isOwner
        cases isOwner
      exact ⟨fun _ => by simp [visibility, enclosed, free],
        fun _ outside => absurd inBody outside⟩
  | some owner =>
      rw [enclosed, Option.map_some, Option.map_eq_some_iff] at agree
      rcases agree with ⟨owner', enclosed', started⟩
      have placed := IsMethodIn.placed ⟨laidOut, member, isMethod⟩ enclosed
      have placed' := IsMethodIn.placed ⟨laidOut', member', isMethod'⟩ enclosed'
      constructor
      · rintro (isSingleton | stands)
        · exact absurd isSingleton singleton
        · exact placed.visibility_eq_of_agrees placed' same started stands
      · intro _ outside
        have outside' : ¬StandsInBody changed := fun stands =>
          outside ((placed.standsInBody_iff_of_agrees placed' same started).mp
            stands)
        exact ⟨owner', enclosed', leaves_iff.mpr
          (placed'.visibility_eq_of_not_standsInBody outside')⟩

/-- A class with a definition in the expression for the class above it, and with
what follows that expression. -/
def labelClass (body : List Node) : Node :=
  spannedNode 1 "class" none 0 58 "" (
    spannedNode 2 "constant" "name" 6 9 "Job" [] ::
    spannedNode 3 "superclass" "superclass" 10 44 "" [
      spannedNode 4 "call" none 12 44 "" [
        spannedNode 5 "constant" "receiver" 12 18 "Struct" [],
        spannedNode 6 "identifier" "method" 19 22 "new" [],
        spannedNode 7 "do_block" "block" 23 44 "" [
          spannedNode 8 "body_statement" "body" 26 40 "" [
            spannedNode 9 "method" none 26 40 "" [
              spannedNode 10 "identifier" "name" 30 35 "label" []]]]]] ::
    body)

/-- The body of the class, with a bare modifier. -/
def privateBody : Node :=
  spannedNode 11 "body_statement" "body" 47 54 "" [
    spannedNode 12 "identifier" none 47 54 "private" []]

/-- The file of such a class, without a body and with one. -/
def labelFile (body : List Node) : Node :=
  fileOf 54 (labelClass body)

theorem not_standsInBody_labelFile :
    ¬StandsInBody (methodOf (labelFile [])) := by
  intro stands
  rcases stands (labelClass []) rfl with ⟨statement, isStatement, -⟩
  have empty : (labelClass []).statements = [] := by
    decide +kernel
  rw [empty] at isStatement
  cases isStatement

theorem visibility_of_agreesBefore_job :
    visibility (methodOf longerJobFile) = visibility (methodOf jobFile) ∧
      visibility (methodOf (labelFile [])) = .isPublic ∧
      visibility (methodOf (labelFile [privateBody])) = .isPrivate := by
  have run := isMethodIn_jobFile
  have longer := isMethodIn_longerJobFile
  have label : IsMethodIn (labelFile []) (methodOf (labelFile [])) :=
    ⟨by decide +kernel, List.mem_of_getElem? (i := 8) rfl, by decide +kernel⟩
  have closed : IsMethodIn (labelFile [privateBody])
      (methodOf (labelFile [privateBody])) :=
    ⟨by decide +kernel, List.mem_of_getElem? (i := 8) rfl, by decide +kernel⟩
  refine ⟨?_, ?_, ?_⟩
  · exact (visibility_of_agreesBefore run.laidOut run.member longer.laidOut
      longer.member (by decide +kernel)
      ⟨by decide +kernel, by decide +kernel⟩).1 (.inr standsInBody_jobFile)
  · rcases (visibility_of_agreesBefore label.laidOut label.member label.laidOut
        label.member (by decide +kernel) ⟨rfl, rfl⟩).2 label.isMethod
        not_standsInBody_labelFile with ⟨owner, enclosed, leaves⟩
    cases enclosed
    rw [leaves_iff.mp leaves]
    decide +kernel
  · rcases (visibility_of_agreesBefore label.laidOut label.member closed.laidOut
        closed.member (by decide +kernel)
        ⟨by decide +kernel, by decide +kernel⟩).2 label.isMethod
        not_standsInBody_labelFile with ⟨owner, enclosed, leaves⟩
    cases enclosed
    rw [leaves_iff.mp leaves]
    decide +kernel

end SpecAudit.Method

import Typings.Proofs.ConstantTree
import Typings.Proofs.SessionFree
import Typings.Synthesis.Builtins
import Typings.Synthesis.Globals

/-! # Steps that note no missing index

Only one step of a run notes that a class has no index. This module goes through all the others.
What they append to the advisories is never of this kind, whether they succeed or fail.

* `Synth.Quiet`: the steps that note no missing index.
* `Synth.schemaMembers_quiet`: the members of a class.
* `Synth.builtins_quiet`, `Synth.constants_quiet`, `Synth.events_quiet`, `Synth.concepts_quiet`,
  `Synth.globals_quiet`: the categories other than the classes.
-/

namespace Typings

open Schema (Attribute BuiltinType Concept Define Event GlobalObject Method NamedOption Parameter)

/-- Whether the advisory is on a class without an index. -/
def Advisory.isMissingIndex : Advisory → Bool
  | .missingIndexShape _ => true
  | .unresolvedLink _ _ => false
  | .nonIndexableKey _ _ => false
  | .missingBuiltinDefinition _ => false
  | .missingConstantDefinition _ => false
  | .missingConceptDefinition _ => false

theorem Advisory.not_isMissingIndex_of_isLookup {advisory : Advisory}
    (isLookup : advisory.isLookup) : ¬ advisory.isMissingIndex := by
  cases advisory with
  | missingIndexShape className => cases isLookup
  | _ => simp [isMissingIndex]

theorem Advisory.mem_filter_isMissingIndex {advisories : List Advisory} {className : String} :
    .missingIndexShape className ∈ advisories.filter isMissingIndex ↔
      .missingIndexShape className ∈ advisories := by
  simp [isMissingIndex]

namespace Synth

variable {α β : Type}

/-- Whatever the outcome of the step, it only appends advisories, and none on a missing index. -/
def Quiet (step : Synth α) : Prop :=
  ∀ s, ∃ added, (outcome step s).2.advisories = s.advisories ++ added ∧
    ∀ advisory ∈ added, ¬ advisory.isMissingIndex

namespace Quiet

theorem of_same {step : Synth α}
    (same : ∀ s, (outcome step s).2.advisories = s.advisories) : Quiet step :=
  fun s => ⟨[], by rw [same, List.append_nil], by simp⟩

theorem pure (x : α) : Quiet (Pure.pure x) :=
  of_same fun _ => rfl

theorem throw (e : SynthesisError) : Quiet (throw e : Synth α) :=
  of_same fun _ => rfl

theorem get : Quiet (get : Synth Session) :=
  of_same fun _ => rfl

theorem use (entity : String) : Quiet (use entity) :=
  of_same fun _ => rfl

theorem useMember (entity member : String) : Quiet (useMember entity member) :=
  of_same fun _ => rfl

theorem note {advisory : Advisory} (other : ¬ advisory.isMissingIndex) : Quiet (note advisory) :=
  fun _ => ⟨[advisory], rfl, by simpa using other⟩

/-- The second step needs to be quiet only where the first one comes to. -/
theorem bind_of_runs {step : Synth α} {next : α → Synth β} (first : Quiet step)
    (second : ∀ s x s', Runs step s x s' → Quiet (next x)) : Quiet (step >>= next) := by
  intro s
  obtain ⟨added, appended, others⟩ := first s
  rw [outcome_bind]
  rcases made : outcome step s with ⟨result, t⟩
  rw [made] at appended
  -- A step that fails ends the run, so that nothing is noted behind it.
  cases result with
  | error e => exact ⟨added, appended, others⟩
  | ok x =>
    obtain ⟨added', appended', others'⟩ := second s x t made t
    refine ⟨added ++ added', ?_, fun advisory isNoted => ?_⟩
    · show (outcome (next x) t).2.advisories = _
      rw [appended', ← List.append_assoc, ← appended]
    · rcases List.mem_append.1 isNoted with isNoted | isNoted
      · exact others advisory isNoted
      · exact others' advisory isNoted

theorem bind {step : Synth α} {next : α → Synth β} (first : Quiet step)
    (second : ∀ x, Quiet (next x)) : Quiet (step >>= next) :=
  first.bind_of_runs fun _ x _ _ => second x

theorem map {step : Synth α} (f : α → β) (quiet : Quiet step) : Quiet (f <$> step) := by
  rw [map_eq_pure_bind]
  exact quiet.bind fun x => pure (f x)

theorem each {step : α → Synth β} {xs : List α} (quiet : ∀ x ∈ xs, Quiet (step x)) :
    Quiet (each step xs) := by
  induction xs with
  | nil => exact pure []
  | cons x xs ih =>
    have first := quiet x List.mem_cons_self
    have others := ih fun y isMember => quiet y (List.mem_cons_of_mem x isMember)
    exact first.bind fun _ => others.bind fun _ => pure _

end Quiet

theorem SessionFree.quiet {step : Synth α} (free : SessionFree step) : Quiet step := by
  obtain ⟨result, added, lookups, same⟩ := free
  intro s
  refine ⟨added, by rw [same], fun advisory isNoted => ?_⟩
  exact Advisory.not_isMissingIndex_of_isLookup (lookups advisory isNoted)

/-! ## Merging with overrides -/

variable (ctx : Context)

theorem findOverride_quiet (entity : String) (allowed : List OverrideKind) :
    Quiet (findOverride ctx entity allowed) := by
  rw [findOverride]
  split
  · exact .pure _
  · split
    · exact (Quiet.use entity).bind fun _ => .pure _
    · exact .throw _

theorem appendUnclaimed_quiet (entity : String) (o : Option Override) (members : List Member) :
    Quiet (appendUnclaimed entity o members) :=
  Quiet.get.bind fun _ => .pure _

section Members

variable (entity : String) (o : Option Override)

theorem claimMember_quiet (name : String) (shape : MemberShape) (doc : Option String) :
    Quiet (claimMember entity o name shape doc) := by
  rw [claimMember]
  split
  · exact .pure _
  · split
    · exact (Quiet.useMember entity name).bind fun _ => .pure _
    · exact .throw _

theorem mergeMember_quiet (name : String) (shape : MemberShape) (doc : Option String)
    {synthesize : Synth Member} (free : SessionFree synthesize) :
    Quiet (mergeMember entity o name shape doc synthesize) := by
  refine (claimMember_quiet entity o name shape doc).bind fun claimed => ?_
  cases claimed with
  | some member => exact .pure _
  | none => exact free.quiet.bind fun _ => .pure _

theorem mergeMethod_quiet (method : Method) : Quiet (mergeMethod ctx entity o method) := by
  refine (methodDoc_free ctx _ method).quiet.bind fun doc =>
    (claimMember_quiet entity o _ _ doc).bind fun claimed => ?_
  cases claimed with
  | some member => exact .pure _
  | none => exact (signature_free ctx entity method).quiet.bind fun _ => .pure _

theorem mergeAttribute_quiet (attr : Attribute) : Quiet (mergeAttribute ctx entity o attr) :=
  (documentation_free ctx _ _).quiet.bind fun doc =>
    mergeMember_quiet entity o _ _ doc (synthesizeAttribute_free ctx entity attr)

theorem mergeLength_quiet (length : Attribute) (arrayLike : Bool) :
    Quiet (mergeLength ctx entity o length arrayLike) :=
  (describe_free ctx _ length.description).quiet.bind fun doc =>
    mergeMember_quiet entity o _ _ doc (synthesizeLength_free ctx _ length arrayLike)

theorem mergeParameters_quiet (parameters : List Parameter) :
    Quiet (mergeParameters ctx entity o parameters) :=
  .each fun p _ => (describe_free ctx _ p.description).quiet.bind fun doc =>
    mergeMember_quiet entity o _ _ doc ((mapType_free ctx _ p.type).bind fun _ => .pure _)

theorem flagMember_quiet (option : NamedOption) : Quiet (flagMember ctx entity o option) :=
  (describe_free ctx _ option.description).quiet.bind fun doc =>
    mergeMember_quiet entity o _ _ doc (.pure _)

end Members

theorem schemaMembers_quiet (c : Schema.Class) (o : Option Override) (triad arrayLike : Bool) :
    Quiet (schemaMembers ctx c o triad arrayLike) :=
  (Quiet.each fun call _ => (callMember_free ctx c.name call).quiet).bind fun _ =>
    (Quiet.each fun m _ => mergeMethod_quiet ctx c.name o m).bind fun _ =>
      (Quiet.each fun a _ => mergeAttribute_quiet ctx c.name o a).bind fun _ =>
        (Quiet.each fun l _ => mergeLength_quiet ctx c.name o l arrayLike).bind fun _ => .pure _

theorem markerDeclarations_quiet (c : Schema.Class) : Quiet (markerDeclarations ctx c) :=
  (Quiet.each fun m _ => mergeMethod_quiet ctx _ none m).bind fun _ =>
    (Quiet.each fun a _ => mergeAttribute_quiet ctx _ none a).bind fun _ => .pure _

/-! ## Builtin types, events and globals -/

theorem builtinDeclarations_quiet (builtin : BuiltinType) :
    Quiet (builtinDeclarations ctx builtin) := by
  have described := (describeEntity_free ctx builtin.name builtin.description [] []).quiet
  refine (findOverride_quiet ctx builtin.name _).bind fun o => ?_
  cases o with
  | some o => exact described.bind fun _ => .pure _
  | none =>
    dsimp only
    split
    · exact .pure _
    · refine described.bind fun doc => Quiet.bind ?_ fun _ => .pure _
      rw [plainBuiltin]
      split
      · exact .pure _
      · exact (Quiet.note (by simp [Advisory.isMissingIndex])).bind fun _ => .pure _

theorem builtins_quiet : Quiet (builtins ctx) :=
  (Quiet.each fun b _ => builtinDeclarations_quiet ctx b).bind fun _ => .pure _

theorem events_quiet : Quiet (events ctx) :=
  .each fun event _ => (findOverride_quiet ctx _ _).bind fun o =>
    (describeEntity_free ctx event.name event.description event.notes event.examples).quiet.bind
      fun _ => (mergeParameters_quiet ctx _ o event.data).bind fun own =>
        (appendUnclaimed_quiet _ o own).bind fun _ => .pure _

theorem globals_quiet : Quiet (globals ctx) :=
  .each fun object _ => (mapType_free ctx _ object.type).quiet.bind fun _ =>
    (describeEntity_free ctx object.name object.description [] []).quiet.bind fun _ => .pure _

/-! ## Concepts -/

section Concepts

variable (name : String) (doc : Option String)

theorem aliasConcept_quiet {type : Synth Ty} (free : SessionFree type) :
    Quiet (aliasConcept ctx name doc type) := by
  refine (findOverride_quiet ctx name _).bind fun o => ?_
  cases o with
  | some o => exact .pure _
  | none => exact free.quiet.bind fun _ => .pure _

theorem structuralConcept_quiet {members : Option Override → Synth (List Member)}
    (quiet : ∀ o, Quiet (members o)) : Quiet (structuralConcept ctx name doc members) := by
  refine (findOverride_quiet ctx name _).bind fun o => ?_
  split
  · exact .pure _
  · exact (quiet o).bind fun own => (appendUnclaimed_quiet name o own).bind fun _ => .pure _

theorem tableConcept_quiet (concept : Concept) (shape : Schema.TableShape) :
    Quiet (tableConcept ctx concept shape doc) := by
  rw [tableConcept]
  split
  · exact structuralConcept_quiet ctx _ doc fun o => mergeParameters_quiet ctx _ o shape.parameters
  · refine (findOverride_quiet ctx concept.name _).bind fun o => ?_
    cases o with
    | some o => exact .pure _
    | none => exact (expandVariants_free ctx _ doc).quiet

theorem unionType_free (options : List Schema.UnionOption) :
    SessionFree (unionType ctx name options) := by
  refine (SessionFree.each fun option _ => ?_).bind fun _ => .pure _
  rw [unionOptionTypes]
  split
  · exact (mapType_free ctx name option.type).bind fun _ => .pure _
  · exact .pure _

theorem fieldsAndElements_free (last : Option Nat) (index : Nat) (parameters : List Parameter) :
    SessionFree (fieldsAndElements ctx name last index parameters) := by
  induction parameters generalizing index with
  | nil =>
    rw [fieldsAndElements]
    exact .pure _
  | cons parameter rest ih =>
    have first : SessionFree (fieldAndElement ctx name last index parameter) :=
      (mapType_free ctx _ parameter.type).bind fun _ =>
        (describe_free ctx _ parameter.description).bind fun _ => .pure _
    rw [fieldsAndElements]
    exact first.bind fun _ => (ih _).bind fun _ => .pure _

theorem documentedConcept_quiet (concept : Concept) :
    Quiet (documentedConcept ctx concept doc) := by
  rw [documentedConcept]
  cases concept.kind with
  | prose =>
    refine (findOverride_quiet ctx concept.name _).bind fun o => ?_
    cases o with
    | some o => exact .pure _
    | none => exact (Quiet.note (by simp [Advisory.isMissingIndex])).bind fun _ => .pure _
  | union options =>
    exact aliasConcept_quiet ctx _ doc (unionType_free ctx concept.name options)
  | enumeration options => exact aliasConcept_quiet ctx _ doc (.pure _)
  | tableOrArray parameters =>
    exact aliasConcept_quiet ctx _ doc
      ((fieldsAndElements_free ctx concept.name _ _ _).bind fun _ => .pure _)
  | «structure» attributes =>
    exact structuralConcept_quiet ctx _ doc fun o => .each fun a _ =>
      mergeAttribute_quiet ctx concept.name o a
  | flag options =>
    exact structuralConcept_quiet ctx _ doc fun o => .each fun option _ =>
      flagMember_quiet ctx concept.name o option
  | table shape => exact tableConcept_quiet ctx doc concept shape
  | filter shape => exact tableConcept_quiet ctx doc concept shape

theorem concepts_quiet : Quiet (concepts ctx) :=
  (Quiet.each fun concept _ =>
    (describeEntity_free ctx concept.name concept.description concept.notes
      concept.examples).quiet.bind fun doc => documentedConcept_quiet ctx doc concept).bind
        fun _ => .pure _

end Concepts

/-! ## The tree of constants -/

theorem children_quiet (path name : String) (subkeys : List Define) (doc : Option String)
    (quiet : ∀ d ∈ subkeys, Quiet (nodeDeclarations ctx path d)) :
    Quiet
      (if subkeys.isEmpty then pure [] else
        (fun body : List (List Declaration) => [Declaration.nameSpace name body.flatten doc])
          <$> inOrder (nodeSteps ctx path subkeys)) := by
  rw [inOrder_nodeSteps]
  split
  · exact .pure _
  · exact (Quiet.each fun d isMember => quiet d (Schema.mem_inOrder.1 isMember)).map _

/-- By induction over the tree of constants. -/
theorem nodeDeclarations_quiet (parent : String) (d : Define) :
    Quiet (nodeDeclarations ctx parent d) := by
  -- The nodes below are at a longer path, so the parent changes with the node.
  induction d using Schema.Define.induct generalizing parent with
  | node name order description values subkeys ih =>
    rw [nodeDeclarations]
    refine (describeEntity_free ctx _ description [] []).quiet.bind fun doc =>
      (findOverride_quiet ctx _ _).bind fun o => ?_
    cases o with
    | some o =>
      refine Quiet.bind ?_ fun _ => .pure _
      rw [overriddenNode]
      split
      · exact .pure _
      · exact .throw _
    | none =>
      have children := children_quiet ctx (Schema.qualified parent name) name subkeys
        (if values.isEmpty then doc else none) fun sub isMember => ih sub isMember _
      simp only [← ite_bind]
      refine Quiet.bind ?_ fun leaf => children.bind fun inner => ?_
      · split
        · exact .pure _
        · exact ((Quiet.each fun value _ =>
            (describe_free ctx _ value.1.description).quiet.bind fun _ => .pure _).bind
              fun _ => .pure _).map _
      · split
        · exact (Quiet.note (by simp [Advisory.isMissingIndex])).bind fun _ => .pure _
        · exact .pure _

theorem constants_quiet : Quiet (constants ctx) := by
  have quiet := children_quiet ctx ctx.config.constantsRoot ctx.config.constantsRoot
    ctx.document.defines none fun d _ => nodeDeclarations_quiet ctx ctx.config.constantsRoot d
  simpa only [constants, map_eq_pure_bind] using quiet

end Synth

end Typings

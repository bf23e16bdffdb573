import Typings.Proofs.Agreement
import Typings.Proofs.AskedOverrides

/-! # Runs that agree

In contexts that agree, the step for an entity is the same if its override is. The steps of two runs
are the same, if both find the same override under every name that an entity asks for.

* `Schema.Class.Alike`: classes that differ in order only, with the same first members of a name.
* `Synth.eventDeclaration_congr`, `Synth.classDeclarations_congr`,
  `Synth.conceptDeclarations_congr`, `Synth.nodeDeclarations_congr`: the steps for entities.
* `Synth.entities_congr`: the steps for all entities of two documents.
-/

namespace Typings

open Schema

/-! ## Classes that are alike -/

namespace Schema

theorem forall₂_toList {α : Type} {R : α → α → Prop} {o o' : Option α}
    (related : Option.Rel R o o') : List.Forall₂ R o.toList o'.toList := by
  cases related with
  | none => exact .nil
  | some here => exact .cons here .nil

theorem findSome?_rel {α β : Type} {R : α → α → Prop} {S : β → β → Prop} {f : α → Option β}
    {xs ys : List α} (related : List.Forall₂ R xs ys)
    (respects : ∀ x y, R x y → Option.Rel S (f x) (f y)) :
    Option.Rel S (xs.findSome? f) (ys.findSome? f) := by
  induction related with
  | nil => exact .none
  | @cons x y xs ys here _ ih =>
    have first := respects x y here
    rw [List.findSome?_cons, List.findSome?_cons]
    generalize f x = found, f y = found' at first ⊢
    cases first with
    | none => exact ih
    | some same => exact .some same

/-- The classes differ in order only, and the first method or attribute of a name is the same one in
    both. -/
structure Class.Alike (c c' : Schema.Class) : Prop where
  reordered : c.Reordered c'
  methods : ∀ name, Option.Rel Method.Reordered (c.method? name) (c'.method? name)
  attributes : ∀ name, Option.Rel Attribute.Reordered (c.attribute? name) (c'.attribute? name)

namespace Class.Alike

theorem refl (c : Schema.Class) : c.Alike c := by
  refine ⟨.refl c, fun name => ?_, fun name => ?_⟩
  · cases c.method? name with
    | none => exact .none
    | some method => exact .some (.refl method)
  · cases c.attribute? name with
    | none => exact .none
    | some attr => exact .some (.refl attr)

variable {c c' : Schema.Class} (alike : c.Alike c')

include alike

theorem hasTriad_eq : c.hasTriad = c'.hasTriad := by
  have sameKind (name kind : String) :
      (c.attribute? name).any (·.type.name? == some kind) =
        (c'.attribute? name).any (·.type.name? == some kind) := by
    have related := alike.attributes name
    generalize c.attribute? name = found, c'.attribute? name = found' at related ⊢
    cases related with
    | none => rfl
    | some attributes =>
      cases attributes with
      | intro types => rw [Option.any_some, Option.any_some, types.name?_eq]
  have sameHelp : (c.method? helpMethod).isSome = (c'.method? helpMethod).isSome := by
    have related := alike.methods helpMethod
    generalize c.method? helpMethod = found, c'.method? helpMethod = found' at related ⊢
    cases related <;> rfl
  rw [hasTriad, hasTriad, sameHelp, sameKind, sameKind]

theorem operators : List.Forall₂ Operator.Reordered c.operators c'.operators := by
  cases alike.reordered with
  | intro sameMethods sameAttributes sameOperators => exact sameOperators

theorem callOperator? : Option.Rel Method.Reordered c.callOperator? c'.callOperator? := by
  refine findSome?_rel alike.operators fun _ _ reordered => ?_
  cases reordered with
  | call methods => exact .some methods
  | length => exact .none
  | index => exact .none

theorem lengthOperator? : Option.Rel Attribute.Reordered c.lengthOperator? c'.lengthOperator? := by
  refine findSome?_rel alike.operators fun _ _ reordered => ?_
  cases reordered with
  | call => exact .none
  | length attributes => exact .some attributes
  | index => exact .none

theorem indexOperator? : Option.Rel Attribute.Reordered c.indexOperator? c'.indexOperator? := by
  refine findSome?_rel alike.operators fun _ _ reordered => ?_
  cases reordered with
  | call => exact .none
  | length => exact .none
  | index attributes => exact .some attributes

end Class.Alike

end Schema

namespace Synth

variable {ctx ctx' : Context} (agrees : ctx.Agrees ctx')

include agrees

/-! ## Concepts -/

/-- The options of a union are sorted, so that their sequence does not matter. -/
theorem unionType_congr {options options' : List UnionOption}
    (shuffled : Shuffled UnionOption.Reordered options options') (name : String) :
    unionType ctx name options = unionType ctx' name options' := by
  have sameTypes : each (unionOptionTypes ctx name) (Schema.inOrder options) =
      each (unionOptionTypes ctx' name) (Schema.inOrder options') := by
    refine each_inOrder_congr shuffled (fun _ _ reordered => ?_)
      fun option _ option' reordered => ?_
    · cases reordered
      rfl
    · cases reordered with
      | intro types =>
        simp only [unionOptionTypes, types.name?_eq, mapType_congr agrees types]
  rw [unionType, unionType, sameTypes]

omit agrees in
theorem findOverride_congr {name : String}
    (same : ctx.overrides.get? name = ctx'.overrides.get? name) :
    findOverride ctx name = findOverride ctx' name := by
  funext allowed
  rw [findOverride, findOverride, same]

omit agrees in
/-- Two steps that start with the same override agree when they go on in the same way. -/
theorem findOverrideThen_congr {α : Type} {name : String} {allowed : List OverrideKind}
    {next next' : Option Override → Synth α}
    (same : ctx.overrides.get? name = ctx'.overrides.get? name)
    (sameNext : next (ctx.overrides.get? name) = next' (ctx.overrides.get? name)) :
    findOverride ctx name allowed >>= next = findOverride ctx' name allowed >>= next' := by
  rw [← findOverride_congr same, findOverride]
  cases isOverride : ctx.overrides.get? name with
  | none =>
    rw [isOverride] at sameNext
    simpa using sameNext
  | some o =>
    rw [isOverride] at sameNext
    dsimp only
    split
    · simp only [bind_assoc, pure_bind, sameNext]
    · rfl

omit agrees in
theorem aliasConcept_congr {name : String} {type type' : Synth Ty}
    (same : ctx.overrides.get? name = ctx'.overrides.get? name) (types : type = type')
    (doc : Option String) :
    aliasConcept ctx name doc type = aliasConcept ctx' name doc type' := by
  rw [aliasConcept, aliasConcept, findOverride_congr same, types]

omit agrees in
theorem structuralConcept_congr {name : String}
    {members members' : Option Override → Synth (List Member)}
    (same : ctx.overrides.get? name = ctx'.overrides.get? name)
    (sameMembers : ∀ o, members o = members' o) (doc : Option String) :
    structuralConcept ctx name doc members = structuralConcept ctx' name doc members' := by
  rw [structuralConcept, structuralConcept, findOverride_congr same, funext sameMembers]

section Concepts

variable {concept : Concept}
  (same : ctx.overrides.get? concept.name = ctx'.overrides.get? concept.name)

include same

theorem tableConcept_congr {shape shape' : TableShape} (shapes : shape.Reordered shape')
    (kind : ConceptKind) (doc : Option String) :
    tableConcept ctx concept shape doc = tableConcept ctx' { concept with kind } shape' doc := by
  cases shapes with
  | @mk groupDescription parameters parameters' groups groups' shared grouped =>
    have structural := structuralConcept_congr same
      (fun o => mergeParameters_congr agrees shared concept.name o) doc
    have variants (description : Option String) : VariantTable.Reordered
        ⟨concept.name, parameters, groups, description⟩
        ⟨concept.name, parameters', groups', description⟩ := .intro shared grouped
    simp only [tableConcept, grouped.isEmpty_eq, structural, findOverride_congr same,
      expandVariants_congr agrees (variants _)]

/-- Whatever a concept is, its parts are sorted before they are declared. -/
theorem conceptDeclarations_congr {concept' : Concept} (reordered : concept.Reordered concept') :
    conceptDeclarations ctx concept = conceptDeclarations ctx' concept' := by
  cases reordered with
  | @intro kind' kinds =>
    have sameDeclarations : documentedConcept ctx concept =
        documentedConcept ctx' { concept with kind := kind' } := by
      funext doc
      obtain ⟨name, order, description, notes, examples, kind⟩ := concept
      unfold documentedConcept
      dsimp only at kinds same ⊢
      cases kinds with
      | prose => rw [proseConcept, proseConcept, findOverride_congr same]
      | union shuffled =>
        exact aliasConcept_congr same (unionType_congr agrees shuffled name) doc
      | «structure» shuffled =>
        refine structuralConcept_congr same (fun o => ?_) doc
        refine each_inOrder_congr shuffled (fun _ _ reordered => ?_) fun attr _ attr' reordered =>
          mergeAttribute_congr agrees reordered name o
        cases reordered
        rfl
      | flag shuffled =>
        refine structuralConcept_congr same (fun o => ?_) doc
        rw [flagMember_congr agrees, shuffled.inOrder_eq]
      | table shapes => exact tableConcept_congr agrees same shapes _ doc
      | filter shapes => exact tableConcept_congr agrees same shapes _ doc
      | enumeration shuffled =>
        refine aliasConcept_congr same ?_ doc
        rw [enumerationType, enumerationType, shuffled.inOrder_eq]
      | tableOrArray shuffled =>
        exact aliasConcept_congr same (tableOrArrayType_congr agrees shuffled name) doc
    rw [conceptDeclarations, conceptDeclarations, describeEntity_congr agrees, sameDeclarations]

end Concepts

/-! ## Builtin types, events and global objects -/

theorem builtinDeclarations_congr {builtin : BuiltinType}
    (same : ctx.overrides.get? builtin.name = ctx'.overrides.get? builtin.name) :
    builtinDeclarations ctx builtin = builtinDeclarations ctx' builtin := by
  have samePlain : plainBuiltin ctx = plainBuiltin ctx' := by
    funext name doc
    rw [plainBuiltin, plainBuiltin, agrees.config]
  rw [builtinDeclarations, builtinDeclarations, findOverride_congr same,
    describeEntity_congr agrees, agrees.config, samePlain]

theorem eventDeclaration_congr {event event' : Event} (reordered : event.Reordered event')
    (same : ctx.overrides.get? (eventName event) = ctx'.overrides.get? (eventName event)) :
    eventDeclaration ctx event = eventDeclaration ctx' event' := by
  have sameOverride := findOverride_congr same
  cases reordered with
  | intro shuffled =>
    have sameMembers := mergeParameters_congr agrees shuffled (eventName event)
    simp only [eventDeclaration, sameOverride, sameMembers, describeEntity_congr agrees]
    rfl

theorem globalDeclaration_congr {object object' : GlobalObject}
    (reordered : object.Reordered object') :
    globalDeclaration ctx object = globalDeclaration ctx' object' := by
  cases reordered with
  | intro types =>
    rw [globalDeclaration, globalDeclaration, mapType_congr agrees types,
      describeEntity_congr agrees]

/-! ## Members of classes -/

section Classes

variable {c c' : Schema.Class}

theorem mergeLength_congr {length length' : Attribute} (reordered : length.Reordered length')
    (className : String) (o : Option Override) (arrayLike : Bool) :
    mergeLength ctx className o length arrayLike =
      mergeLength ctx' className o length' arrayLike := by
  cases reordered with
  | intro types =>
    simp only [mergeLength, synthesizeLength, mapType_congr agrees types, describe_congr agrees]

omit agrees in
theorem each_kept_congr {α β : Type} [Ordered α] {R : α → α → Prop} {step step' : α → Synth β}
    (kept : α → Bool) {xs ys : List α} (shuffled : Shuffled R xs ys)
    (places : ∀ x y, R x y → Ordered.order x = Ordered.order y)
    (respects : ∀ x y, R x y → kept x = kept y) (same : ∀ x y, R x y → step x = step' y) :
    each step ((Schema.inOrder xs).filter kept) = each step' ((Schema.inOrder ys).filter kept) := by
  have respects' : ∀ x y, R x y → (kept x ↔ kept y) := fun x y related => by
    rw [respects x y related]
  exact each_congr (List.rel_filter respects' (shuffled.forall₂_inOrder places))
    fun x _ y related => same x y related

/-- The members of alike classes agree, as both sort what they go through. -/
theorem schemaMembers_congr (alike : c.Alike c') (o : Option Override) (triad arrayLike : Bool) :
    schemaMembers ctx c o triad arrayLike = schemaMembers ctx' c' o triad arrayLike := by
  have sameCall := each_congr (forall₂_toList alike.callOperator?) fun m _ m' reordered =>
    callMember_congr agrees reordered c.name
  have sameLength := each_congr (forall₂_toList alike.lengthOperator?) fun a _ a' reordered =>
    mergeLength_congr agrees reordered c.name o arrayLike
  obtain ⟨reordered, _, _⟩ := alike
  cases reordered with
  | intro sameMethods sameAttributes sameOperators =>
    let kept (name : String) : Bool := !(triad && isTriadMember name)
    have methods := each_kept_congr (fun m : Method => kept m.name) sameMethods
      (fun _ _ reordered => by cases reordered; rfl)
      (fun _ _ reordered => by cases reordered; rfl)
      fun _ _ reordered => mergeMethod_congr agrees reordered c.name o
    have attributes := each_kept_congr (fun a : Attribute => kept a.name) sameAttributes
      (fun _ _ reordered => by cases reordered; rfl)
      (fun _ _ reordered => by cases reordered; rfl)
      fun _ _ reordered => mergeAttribute_congr agrees reordered c.name o
    simp only [kept] at methods attributes
    simp only [schemaMembers]
    simp only [sameCall, sameLength, methods, attributes]

theorem indexType_congr (alike : c.Alike c') (o : Option Override) :
    indexType ctx c o = indexType ctx' c' o := by
  have sameName : c.name = c'.name := by
    cases alike.reordered
    rfl
  have sameIndex := alike.indexOperator?
  rw [indexType, indexType, sameName]
  generalize c.indexOperator? = index, c'.indexOperator? = index' at sameIndex ⊢
  cases o.bind (·.indexShape) with
  | some shape => rfl
  | none =>
    cases sameIndex with
    | none => rfl
    | some attributes =>
      cases attributes with
      | intro types => simp only [mapType_congr agrees types]

/-! ## Classes -/

/-- Alike classes with the same override have the same declarations. -/
theorem classDeclarations_congr (alike : c.Alike c')
    (same : ctx.overrides.get? c.name = ctx'.overrides.get? c.name) :
    classDeclarations ctx c = classDeclarations ctx' c' := by
  have sameTriad := alike.hasTriad_eq
  have sameMembers := schemaMembers_congr agrees alike
  have sameIndex := indexType_congr agrees alike
  have sameSupertypes : classSupertypes ctx c = classSupertypes ctx' c' := by
    funext o triad
    rw [classSupertypes, classSupertypes, agrees.config]
    cases alike.reordered
    rfl
  unfold classDeclarations
  rw [findOverride_congr same, describeEntity_congr agrees, sameTriad, sameSupertypes,
    funext fun o => sameIndex o]
  simp only [sameMembers]
  cases alike.reordered
  rfl

theorem markerDeclarations_congr (alike : c.Alike c') :
    markerDeclarations ctx c = markerDeclarations ctx' c' := by
  have sameHelp := each_congr (forall₂_toList (alike.methods helpMethod)) fun m _ m' reordered =>
    mergeMethod_congr agrees reordered ctx.config.markerSupertype none
  have related := List.rel_append (forall₂_toList (alike.attributes validAttribute))
    (forall₂_toList (alike.attributes objectNameAttribute))
  have sameAttributes := each_congr related fun a _ a' reordered =>
    mergeAttribute_congr agrees reordered ctx.config.markerSupertype none
  rw [markerDeclarations, markerDeclarations, sameHelp, sameAttributes, agrees.config]

variable (sameMarker : ctx.overrides.contains ctx.config.markerSupertype =
  ctx'.overrides.contains ctx.config.markerSupertype)

include sameMarker

theorem markerAt_congr (alike : c.Alike c') (marker : Option (List Declaration)) :
    markerAt ctx marker c = markerAt ctx' marker c' := by
  rw [markerAt, markerAt, needsMarker, needsMarker, alike.hasTriad_eq, sameMarker, agrees.config,
    markerDeclarations_congr agrees alike]

omit agrees sameMarker in
theorem classesFrom_congr_of {R : Schema.Class → Schema.Class → Prop} {cs cs' : List Schema.Class}
    (related : List.Forall₂ R cs cs')
    (markers : ∀ c ∈ cs, ∀ c', R c c' → ∀ marker, markerAt ctx marker c = markerAt ctx' marker c')
    (same : ∀ c ∈ cs, ∀ c', R c c' → classDeclarations ctx c = classDeclarations ctx' c')
    (marker : Option (List Declaration)) :
    classesFrom ctx marker cs = classesFrom ctx' marker cs' := by
  induction related generalizing marker with
  | nil => rfl
  | @cons c c' cs cs' here _ ih =>
    have others := ih (fun c isMember => markers c (List.mem_cons_of_mem _ isMember))
      fun c isMember => same c (List.mem_cons_of_mem _ isMember)
    simp only [classesFrom_cons, markers c List.mem_cons_self c' here,
      same c List.mem_cons_self c' here, others]

theorem classesFrom_congr {cs cs' : List Schema.Class} (alike : List.Forall₂ Class.Alike cs cs')
    (same : ∀ c ∈ cs, ctx.overrides.get? c.name = ctx'.overrides.get? c.name)
    (marker : Option (List Declaration)) :
    classesFrom ctx marker cs = classesFrom ctx' marker cs' :=
  classesFrom_congr_of alike (fun _ _ _ alike => markerAt_congr agrees sameMarker alike)
    (fun c isMember _ alike => classDeclarations_congr agrees alike (same c isMember)) marker

end Classes

/-! ## The tree of constants -/

theorem valueEnumeration_congr {values values' : List NamedOption}
    (shuffled : Shuffled Eq values values') (path name : String) (doc : Option String) :
    valueEnumeration ctx path name values doc = valueEnumeration ctx' path name values' doc := by
  have sameMember : valueMember ctx path = valueMember ctx' path := by
    funext value
    rw [valueMember, valueMember, describe_congr agrees]
  rw [valueEnumeration, valueEnumeration, shuffled.inOrder_eq, sameMember]

/-- A node agrees with a reordered one if every override that a run can reach from it is the same.
-/
theorem nodeDeclarations_congr {d d' : Define} (reordered : d.Reordered d') {parent : String}
    (same : ∀ path node, d.Reaches ctx.overrides parent path node →
      ctx.overrides.get? path = ctx'.overrides.get? path) :
    nodeDeclarations ctx parent d = nodeDeclarations ctx' parent d' := by
  -- The nodes below are at a longer path, so the parent changes with the node.
  induction d using Define.induct generalizing d' parent with
  | node name order description values subkeys ih =>
    cases reordered with
    | @node _ _ _ _ values' _ subkeys' sameValues sameSubkeys =>
      obtain ⟨here, below⟩ := forall_reaches.1 same
      dsimp only [Define.name, Define.subkeys] at here below
      have sameLeaf := valueEnumeration_congr agrees sameValues (qualified parent name) name
      rw [nodeDeclarations, nodeDeclarations, describeEntity_congr agrees]
      refine congrArg _ (funext fun doc => findOverrideThen_congr here ?_)
      rw [sameValues.isEmpty_eq, sameSubkeys.isEmpty_eq, inOrder_nodeSteps, inOrder_nodeSteps]
      cases isOverride : ctx.overrides.get? (qualified parent name) with
      | some o => rfl
      | none =>
        -- Without an override of the node, those of the nodes below it are looked up.
        have sameInner := each_inOrder_congr sameSubkeys
          (fun _ _ reordered => by cases reordered; rfl)
          fun d isMember d' reordered => ih d isMember reordered (below isOverride d isMember)
        simp only [sameLeaf, sameInner]

/-! ## All entities -/

/-- The declarations of each category, without the overrides that are left over. -/
def entities (ctx : Context) : Synth Segments := do
  let builtins ← builtins ctx
  let defines ← constants ctx
  let events ← events ctx
  let classes ← classes ctx
  let concepts ← concepts ctx
  let globals ← globals ctx
  return { builtins, defines, events, classes, concepts, globals, unmatchedOverrides := [] }

omit agrees in
theorem segments_eq_entities (ctx : Context) :
    segments ctx = do
      let made ← entities ctx
      let unmatchedOverrides := unmatchedOverrides ctx (← get)
      return { made with unmatchedOverrides } := by
  simp only [segments, entities, bind_assoc, pure_bind]

omit agrees in
theorem runs_segments_iff {made : Segments} {s s' : Session} :
    Runs (segments ctx) s made s' ↔
      ∃ base, Runs (entities ctx) s base s' ∧
        { base with unmatchedOverrides := unmatchedOverrides ctx s' } = made := by
  simp [segments_eq_entities, runs_bind]

omit agrees in
theorem fails_segments_iff {s : Session} {e : SynthesisError} :
    Fails (segments ctx) s e ↔ Fails (entities ctx) s e := by
  simp [segments_eq_entities, fails_bind]

/-- The trees of constants agree if every override that is reached is the same. -/
theorem constants_congr
    (shuffled : Shuffled Define.Reordered ctx.document.defines ctx'.document.defines)
    (same : ∀ d ∈ ctx.document.defines, ∀ path node,
      d.Reaches ctx.overrides ctx.config.constantsRoot path node →
        ctx.overrides.get? path = ctx'.overrides.get? path) :
    constants ctx = constants ctx' := by
  have sameNode (d : Define) (isMember : d ∈ ctx.document.defines) (d' : Define)
      (alike : d.Reordered d') :
      nodeDeclarations ctx ctx.config.constantsRoot d =
        nodeDeclarations ctx' ctx.config.constantsRoot d' :=
    nodeDeclarations_congr agrees alike (same d isMember)
  have sameBody := each_inOrder_congr shuffled (fun _ _ alike => by cases alike; rfl) sameNode
  simp only [constants, inOrder_nodeSteps, shuffled.isEmpty_eq, ← agrees.config, sameBody]

variable (reordered : ctx.document.Reordered ctx'.document)
  (same : ∀ name, ctx.document.AsksFor ctx.overrides ctx.config.constantsRoot name →
    ctx.overrides.get? name = ctx'.overrides.get? name)

include reordered same

/-- The steps for all entities are the same in contexts that agree, if both hold the same override
    under each name that an entity asks for. -/
theorem entities_congr (alike : Shuffled Class.Alike ctx.document.classes ctx'.document.classes)
    (sameMarker : ctx.overrides.contains ctx.config.markerSupertype =
      ctx'.overrides.contains ctx.config.markerSupertype) :
    entities ctx = entities ctx' := by
  have sameConstants := constants_congr agrees reordered.defines fun d isMember path node reaches =>
    same path (.inr (.inl ⟨d, isMember, node, reaches⟩))
  have sameClasses : classes ctx = classes ctx' := by
    have places : ∀ c c' : Schema.Class, c.Alike c' → Ordered.order c = Ordered.order c' :=
      fun _ _ alike => by
        cases alike.reordered
        rfl
    have sameClass (c : Schema.Class) (isMember : c ∈ Schema.inOrder ctx.document.classes) :
        ctx.overrides.get? c.name = ctx'.overrides.get? c.name := by
      refine same c.name (.inr (.inr (.inr (.inl ⟨c, ?_, rfl⟩))))
      exact Schema.mem_inOrder.1 isMember
    rw [classes, classes,
      classesFrom_congr agrees sameMarker (alike.forall₂_inOrder places) sameClass]
  have sameBuiltin (b : BuiltinType) (isMember : b ∈ ctx.document.builtinTypes) (b' : BuiltinType)
      (equal : b = b') : builtinDeclarations ctx b = builtinDeclarations ctx' b' := by
    subst equal
    exact builtinDeclarations_congr agrees (same b.name (.inl ⟨b, isMember, rfl⟩))
  have sameEvent (event : Event) (isMember : event ∈ ctx.document.events) (event' : Event)
      (alike : event.Reordered event') :
      eventDeclaration ctx event = eventDeclaration ctx' event' :=
    eventDeclaration_congr agrees alike
      (same (eventName event) (.inr (.inr (.inl ⟨event, isMember, rfl⟩))))
  have sameConcept (concept : Concept) (isMember : concept ∈ ctx.document.concepts)
      (concept' : Concept) (alike : concept.Reordered concept') :
      conceptDeclarations ctx concept = conceptDeclarations ctx' concept' :=
    conceptDeclarations_congr agrees
      (same concept.name (.inr (.inr (.inr (.inr ⟨concept, isMember, rfl⟩))))) alike
  have sameGlobal (object : GlobalObject) (_ : object ∈ ctx.document.globalObjects)
      (object' : GlobalObject) (alike : object.Reordered object') :
      globalDeclaration ctx object = globalDeclaration ctx' object' :=
    globalDeclaration_congr agrees alike
  have builtinTypes := each_inOrder_congr reordered.builtinTypes
    (fun _ _ equal => congrArg Ordered.order equal) sameBuiltin
  have events :=
    each_inOrder_congr reordered.events (fun _ _ alike => by cases alike; rfl) sameEvent
  have concepts :=
    each_inOrder_congr reordered.concepts (fun _ _ alike => by cases alike; rfl) sameConcept
  have globals :=
    each_inOrder_congr reordered.globalObjects (fun _ _ alike => by cases alike; rfl) sameGlobal
  simp only [entities, Synth.builtins, Synth.events, Synth.concepts, Synth.globals, builtinTypes,
    sameConstants, events, sameClasses, concepts, globals]

end Synth

end Typings

import Typings.Proofs.EntityAgreement

/-! # Types of overridden members

A run takes the members of overrides as they are, and then it does not look at what the schema says
on their types. So documents that differ in the types of overridden members have the same outcome.

* `Schema.Document.Retyped`: documents that differ in the types of overridden members.
* `Synth.claimMember_bind_congr`: what follows a member that is claimed.
* `Synth.eventDeclaration_retyped`, `Synth.classDeclarations_retyped`,
  `Synth.conceptDeclarations_retyped`: the steps for entities.
* `generate_retyped`: documents that differ in such types have the same outcome.
-/

namespace Typings

open Schema

namespace Schema

/-! ## Other types for overridden members -/

/-- The parameters are equal but for the type, and equal unless the override has a member of the
    name. -/
inductive Parameter.Retyped (o : Option Override) (p : Parameter) : Parameter → Prop
  | kept : Retyped o p p
  | overridden (isThere : (memberOf? o p.name).isSome) (type : TypeExpr) :
    Retyped o p { p with type }

/-- The attributes are equal but for the type, and equal unless the override has a member of the
    name. -/
inductive Attribute.Retyped (o : Option Override) (attr : Attribute) : Attribute → Prop
  | kept : Retyped o attr attr
  | overridden (isThere : (memberOf? o attr.name).isSome) (type : TypeExpr) :
    Retyped o attr { attr with type }

/-- The attributes of a class, two of which the marker interface takes from the schema. -/
def Attribute.RetypedInClass (o : Option Override) (attr attr' : Attribute) : Prop :=
  attr.Retyped o attr' ∧
    (attr.name = validAttribute ∨ attr.name = objectNameAttribute → attr = attr')

/-- The methods are equal but for the signature, and equal unless the override has a member of the
    name. The marker interface takes the method for help from the schema. -/
inductive Method.Retyped (o : Option Override) (method : Method) : Method → Prop
  | kept : Retyped o method method
  | overridden (isThere : (memberOf? o method.name).isSome) (other : method.name ≠ helpMethod)
      (parameters : List Parameter) (groups : List ParameterGroup)
      (groupDescription : Option String) (variadicType : Option TypeExpr)
      (takesTable tableIsOptional : Bool) (returnValues : List ReturnValue) :
    Retyped o method
      { method with
        parameters, groups, groupDescription, variadicType, takesTable, tableIsOptional,
        returnValues }

/-- The operators are equal but for the type of a length, and equal unless the override has a member
    for it. -/
inductive Operator.Retyped (o : Option Override) (operator : Operator) : Operator → Prop
  | kept : Retyped o operator operator
  | length {attr : Attribute} (isLength : operator = .length attr)
      (isThere : (memberOf? o lengthMember).isSome) (type : TypeExpr) :
    Retyped o operator (.length { attr with type })

inductive Class.Retyped (o : Option Override) (c : Class) : Class → Prop
  | intro {methods attributes operators}
      (sameMethods : List.Forall₂ (Method.Retyped o) c.methods methods)
      (sameAttributes : List.Forall₂ (Attribute.RetypedInClass o) c.attributes attributes)
      (sameOperators : List.Forall₂ (Operator.Retyped o) c.operators operators) :
    Retyped o c { c with methods, attributes, operators }

inductive Event.Retyped (o : Option Override) (event : Event) : Event → Prop
  | intro {data} (sameData : List.Forall₂ (Parameter.Retyped o) event.data data) :
    Retyped o event { event with data }

/-- The tables are equal but for the types of parameters; with variants they are equal. -/
inductive TableShape.Retyped (o : Option Override) (shape : TableShape) : TableShape → Prop
  | kept : Retyped o shape shape
  | plain {parameters} (groupless : shape.groups = [])
      (sameParameters : List.Forall₂ (Parameter.Retyped o) shape.parameters parameters) :
    Retyped o shape { shape with parameters }

inductive ConceptKind.Retyped (o : Option Override) (kind : ConceptKind) : ConceptKind → Prop
  | kept : Retyped o kind kind
  | structure {attributes attributes'} (isStructure : kind = .structure attributes)
      (sameAttributes : List.Forall₂ (Attribute.Retyped o) attributes attributes') :
    Retyped o kind (.structure attributes')
  | table {shape shape'} (isTable : kind = .table shape) (sameShape : shape.Retyped o shape') :
    Retyped o kind (.table shape')
  | filter {shape shape'} (isFilter : kind = .filter shape) (sameShape : shape.Retyped o shape') :
    Retyped o kind (.filter shape')

inductive Concept.Retyped (o : Option Override) (concept : Concept) : Concept → Prop
  | intro {kind} (sameKind : concept.kind.Retyped o kind) : Retyped o concept { concept with kind }

/-- The documents are equal but for the types of members that the override of their entity has. -/
inductive Document.Retyped (store : OverrideStore) (document : Document) : Document → Prop
  | intro {classes concepts events}
      (sameClasses : List.Forall₂ (fun c => Class.Retyped (store.get? c.name) c)
        document.classes classes)
      (sameConcepts : List.Forall₂
        (fun concept => Concept.Retyped (store.get? concept.name) concept)
        document.concepts concepts)
      (sameEvents : List.Forall₂
        (fun event => Event.Retyped (store.get? (Synth.eventName event)) event)
        document.events events) :
    Retyped store document { document with classes, concepts, events }

end Schema

namespace Synth

variable (ctx : Context) (entity : String) {o : Option Override}

/-! ## Claimed members -/

/-- Where the override has a member of the name, what follows only depends on the member. -/
theorem claimMember_bind_congr {α : Type} {name : String} {expected : MemberShape}
    {doc : Option String} {next next' : Option Member → Synth α}
    (isThere : (memberOf? o name).isSome)
    (same : ∀ member, next (some member) = next' (some member)) :
    claimMember entity o name expected doc >>= next =
      claimMember entity o name expected doc >>= next' := by
  obtain ⟨found, isFound⟩ := Option.isSome_iff_exists.1 isThere
  let asked : AskedMember := ⟨name, expected⟩
  change memberOf? o asked.name = some found at isFound
  change claimMember entity o asked.name asked.shape doc >>= next =
    claimMember entity o asked.name asked.shape doc >>= next'
  by_cases fits : found.shape = asked.shape
  · rw [claimMember_fits isFound fits]
    simp only [bind_assoc, pure_bind, same]
  · -- A member of another shape ends the run before anything follows.
    rw [claimMember_conflict isFound fits]
    rfl

theorem mergeMember_overridden {name : String} (isThere : (memberOf? o name).isSome)
    (expected : MemberShape) (doc : Option String) (step step' : Synth Member) :
    mergeMember entity o name expected doc step = mergeMember entity o name expected doc step' :=
  claimMember_bind_congr entity isThere fun _ => rfl

theorem mergeParameter_retyped {p p' : Parameter} (retyped : p.Retyped o p') :
    mergeParameter ctx entity o p = mergeParameter ctx entity o p' := by
  cases retyped with
  | kept => rfl
  | overridden isThere type =>
    exact bind_congr fun doc => mergeMember_overridden entity isThere .property doc _ _

theorem mergeAttribute_retyped {attr attr' : Attribute} (retyped : attr.Retyped o attr') :
    mergeAttribute ctx entity o attr = mergeAttribute ctx entity o attr' := by
  cases retyped with
  | kept => rfl
  | overridden isThere type =>
    exact bind_congr fun doc => mergeMember_overridden entity isThere (attributeShape attr) doc _ _

theorem mergeMethod_retyped {method method' : Method} (retyped : method.Retyped o method') :
    mergeMethod ctx entity o method = mergeMethod ctx entity o method' := by
  cases retyped with
  | kept => rfl
  | overridden isThere =>
    exact bind_congr fun doc => claimMember_bind_congr entity isThere fun _ => rfl

theorem mergeLength_retyped (isThere : (memberOf? o lengthMember).isSome) (length : Attribute)
    (type : TypeExpr) (arrayLike : Bool) :
    mergeLength ctx entity o length arrayLike =
      mergeLength ctx entity o { length with type } arrayLike :=
  bind_congr fun doc => mergeMember_overridden entity isThere .property doc _ _

theorem mergeParameters_retyped {parameters parameters' : List Parameter}
    (retyped : List.Forall₂ (Parameter.Retyped o) parameters parameters') :
    mergeParameters ctx entity o parameters = mergeParameters ctx entity o parameters' :=
  each_inOrder_congr (.kept retyped) (fun _ _ retyped => by cases retyped <;> rfl)
    fun _ _ _ retyped => mergeParameter_retyped ctx entity retyped

variable {ctx}

/-! ## Events and concepts -/

theorem eventDeclaration_retyped {event event' : Event}
    (retyped : event.Retyped (ctx.overrides.get? (eventName event)) event') :
    eventDeclaration ctx event = eventDeclaration ctx event' := by
  cases retyped with
  | intro sameData =>
    refine findOverrideThen_congr rfl (bind_congr fun doc => ?_)
    rw [mergeParameters_retyped ctx (eventName event) sameData]
    rfl

theorem structuralConcept_retyped {name : String}
    {members members' : Option Override → Synth (List Member)}
    (same : members (ctx.overrides.get? name) = members' (ctx.overrides.get? name))
    (doc : Option String) :
    structuralConcept ctx name doc members = structuralConcept ctx name doc members' :=
  findOverrideThen_congr rfl (by rw [same])

theorem tableConcept_retyped {concept : Concept} {shape shape' : TableShape}
    (retyped : shape.Retyped (ctx.overrides.get? concept.name) shape') (kind : ConceptKind)
    (doc : Option String) :
    tableConcept ctx concept shape doc = tableConcept ctx { concept with kind } shape' doc := by
  cases retyped with
  | kept => rfl
  | plain groupless sameParameters =>
    have isEmpty : shape.groups.isEmpty = true := List.isEmpty_iff.2 groupless
    rw [tableConcept, tableConcept, if_pos isEmpty, if_pos isEmpty]
    exact structuralConcept_retyped (mergeParameters_retyped ctx concept.name sameParameters) doc

/-- The type of a member that the override has is never looked at. -/
theorem conceptDeclarations_retyped {concept concept' : Concept}
    (retyped : concept.Retyped (ctx.overrides.get? concept.name) concept') :
    conceptDeclarations ctx concept = conceptDeclarations ctx concept' := by
  cases retyped with
  | @intro kind' sameKind =>
    refine bind_congr fun doc => ?_
    obtain ⟨name, order, description, notes, examples, kind⟩ := concept
    dsimp only at sameKind
    -- The other kinds of concepts are not merged member by member.
    cases sameKind with
    | kept => rfl
    | «structure» isStructure sameAttributes =>
      subst isStructure
      refine structuralConcept_retyped ?_ doc
      exact each_inOrder_congr (.kept sameAttributes) (fun _ _ retyped => by cases retyped <;> rfl)
        fun _ _ _ retyped => mergeAttribute_retyped ctx name retyped
    | table isTable sameShape =>
      subst isTable
      exact tableConcept_retyped sameShape _ doc
    | filter isFilter sameShape =>
      subst isFilter
      exact tableConcept_retyped sameShape _ doc

end Synth

/-! ## Parts of classes -/

namespace Schema

section Lists

variable {α : Type} {R : α → α → Prop} {xs ys : List α}

theorem find?_congr {p : α → Bool} (related : List.Forall₂ R xs ys)
    (respects : ∀ x y, R x y → p x = p y) (same : ∀ x y, R x y → p x → x = y) :
    xs.find? p = ys.find? p := by
  induction related with
  | nil => rfl
  | @cons x y xs ys here _ ih =>
    rw [List.find?_cons, List.find?_cons, ← respects x y here, ih]
    cases holds : p x with
    | true => rw [same x y here holds]
    | false => rfl

theorem findSome?_congr {β : Type} {f : α → Option β} (related : List.Forall₂ R xs ys)
    (same : ∀ x y, R x y → f x = f y) : xs.findSome? f = ys.findSome? f := by
  induction related with
  | nil => rfl
  | @cons x y xs ys here _ ih => rw [List.findSome?_cons, List.findSome?_cons, same x y here, ih]

end Lists

namespace Class.Retyped

variable {o : Option Override} {c c' : Schema.Class} (retyped : c.Retyped o c')

include retyped

theorem help_eq : c.method? helpMethod = c'.method? helpMethod := by
  cases retyped with
  | intro sameMethods =>
    refine find?_congr sameMethods (fun _ _ retyped => by cases retyped <;> rfl)
      fun _ _ retyped isHelp => ?_
    cases retyped with
    | kept => rfl
    | overridden isThere other => exact (other (eq_of_beq isHelp)).elim

theorem attribute?_eq {name : String} (fixed : name = validAttribute ∨ name = objectNameAttribute) :
    c.attribute? name = c'.attribute? name := by
  cases retyped with
  | intro _ sameAttributes =>
    refine find?_congr sameAttributes (fun _ _ retyped => by cases retyped.1 <;> rfl)
      fun _ _ retyped isNamed => retyped.2 ?_
    rwa [eq_of_beq isNamed]

theorem valid_eq : c.attribute? validAttribute = c'.attribute? validAttribute :=
  retyped.attribute?_eq (.inl rfl)

theorem objectName_eq : c.attribute? objectNameAttribute = c'.attribute? objectNameAttribute :=
  retyped.attribute?_eq (.inr rfl)

theorem hasTriad_eq : c.hasTriad = c'.hasTriad := by
  rw [hasTriad, hasTriad, retyped.help_eq, retyped.valid_eq, retyped.objectName_eq]

theorem callOperator?_eq : c.callOperator? = c'.callOperator? := by
  cases retyped with
  | intro _ _ sameOperators =>
    refine findSome?_congr sameOperators fun _ _ retyped => ?_
    cases retyped with
    | kept => rfl
    | length isLength =>
      rw [isLength]

theorem indexOperator?_eq : c.indexOperator? = c'.indexOperator? := by
  cases retyped with
  | intro _ _ sameOperators =>
    refine findSome?_congr sameOperators fun _ _ retyped => ?_
    cases retyped with
    | kept => rfl
    | length isLength =>
      rw [isLength]

theorem lengthOperator?_rel :
    Option.Rel
      (fun length length' =>
        length = length' ∨
          (memberOf? o lengthMember).isSome ∧ ∃ type, length' = { length with type })
      c.lengthOperator? c'.lengthOperator? := by
  cases retyped with
  | intro _ _ sameOperators =>
    refine findSome?_rel sameOperators fun operator _ retyped => ?_
    cases retyped with
    | kept =>
      cases operator with
      | call method => exact .none
      | length attr => exact .some (.inl rfl)
      | index attr => exact .none
    | length isLength isThere type =>
      subst isLength
      exact .some (.inr ⟨isThere, type, rfl⟩)

end Class.Retyped

end Schema

namespace Synth

variable {ctx : Context} {c c' : Schema.Class}

/-! ## Classes -/

/-- The members of a class do not depend on types that its override replaces. -/
theorem schemaMembers_retyped {o : Option Override} (retyped : c.Retyped o c') :
    schemaMembers ctx c o = schemaMembers ctx c' o := by
  funext triad arrayLike
  have sameCall := retyped.callOperator?_eq
  have sameLength : each (mergeLength ctx c.name o · arrayLike) c.lengthOperator?.toList =
      each (mergeLength ctx c.name o · arrayLike) c'.lengthOperator?.toList := by
    refine each_congr (forall₂_toList retyped.lengthOperator?_rel) fun length _ length' same => ?_
    rcases same with rfl | ⟨isThere, type, rfl⟩
    · rfl
    · exact mergeLength_retyped ctx c.name isThere length type arrayLike
  cases retyped with
  | intro sameMethods sameAttributes sameOperators =>
    let kept (name : String) : Bool := !(triad && isTriadMember name)
    have methods := each_kept_congr (fun m : Method => kept m.name) (.kept sameMethods)
      (fun _ _ retyped => by cases retyped <;> rfl)
      (fun _ _ retyped => by cases retyped <;> rfl)
      fun _ _ retyped => mergeMethod_retyped ctx c.name retyped
    have attributes := each_kept_congr (fun a : Attribute => kept a.name) (.kept sameAttributes)
      (fun _ _ retyped => by cases retyped.1 <;> rfl)
      (fun _ _ retyped => by cases retyped.1 <;> rfl)
      fun _ _ retyped => mergeAttribute_retyped ctx c.name retyped.1
    simp only [kept] at methods attributes
    simp only [schemaMembers, sameCall]
    simp only [sameLength, methods, attributes]

theorem indexType_retyped {o : Option Override} (retyped : c.Retyped o c') :
    indexType ctx c o = indexType ctx c' o := by
  rw [indexType, indexType, retyped.indexOperator?_eq]
  cases retyped
  rfl

/-- The index of a class is not merged, so that only its members may differ in types. -/
theorem classDeclarations_retyped (retyped : c.Retyped (ctx.overrides.get? c.name) c') :
    classDeclarations ctx c = classDeclarations ctx c' := by
  have sameTriad := retyped.hasTriad_eq
  have sameMembers : schemaMembers ctx c _ = schemaMembers ctx c' _ := schemaMembers_retyped retyped
  have sameIndex : indexType ctx c _ = indexType ctx c' _ := indexType_retyped retyped
  -- The override that is found is the one by which the classes are retyped.
  cases retyped
  refine findOverrideThen_congr rfl (bind_congr fun doc => ?_)
  rw [sameTriad, sameMembers, sameIndex]
  rfl

theorem markerAt_retyped {o : Option Override} (retyped : c.Retyped o c')
    (marker : Option (List Declaration)) : markerAt ctx marker c = markerAt ctx marker c' := by
  have sameMarker : markerDeclarations ctx c = markerDeclarations ctx c' := by
    rw [markerDeclarations, markerDeclarations, retyped.help_eq, retyped.valid_eq,
      retyped.objectName_eq]
  rw [markerAt, markerAt, needsMarker, needsMarker, retyped.hasTriad_eq, sameMarker]

end Synth

/-! ## Runs -/

namespace Schema.Document.Retyped

variable {store : OverrideStore} {document document' : Document}
  (retyped : document.Retyped store document')

include retyped

/-- Types do not make a document unusable. -/
theorem error?_eq : document.error? = document'.error? := by
  cases retyped with
  | @intro classes concepts events sameClasses sameConcepts sameEvents =>
    have classNames : document.classes.map (·.name) = classes.map (·.name) :=
      Synth.map_eq_of_forall₂ sameClasses fun _ _ retyped => by cases retyped; rfl
    have conceptNames : document.concepts.map (·.name) = concepts.map (·.name) :=
      Synth.map_eq_of_forall₂ sameConcepts fun _ _ retyped => by cases retyped; rfl
    have eventNames : document.events.map (·.name) = events.map (·.name) :=
      Synth.map_eq_of_forall₂ sameEvents fun _ _ retyped => by cases retyped; rfl
    rw [error?, error?, namesByCategory, namesByCategory, classNames, conceptNames, eventNames]
    rfl

/-- Types play no part in looking up references. -/
theorem agrees (config : Config) :
    (Context.of document store config).Agrees (.of document' store config) where
  config := rfl
  pages := by
    cases retyped with
    | @intro classes concepts events sameClasses sameConcepts sameEvents =>
      funext name
      have isClass : document.classes.any (·.name == name) = classes.any (·.name == name) :=
        (Shuffled.kept sameClasses).any_eq fun _ _ _ retyped => by cases retyped; rfl
      have isConcept : document.concepts.any (·.name == name) = concepts.any (·.name == name) :=
        (Shuffled.kept sameConcepts).any_eq fun _ _ _ retyped => by cases retyped; rfl
      have isEvent : document.events.any (·.name == name) = events.any (·.name == name) :=
        (Shuffled.kept sameEvents).any_eq fun _ _ _ retyped => by cases retyped; rfl
      simp only [Context.entityPage?, Context.of, Context.isClass, Context.isConcept,
        Context.isEvent, isClass, isConcept, isEvent]
      rfl
  defines := by
    cases retyped
    rfl

end Schema.Document.Retyped

variable {store : OverrideStore} {config : Config} {document document' : Document}

/-- The segments of all entities agree. -/
theorem Synth.entities_retyped (retyped : document.Retyped store document') :
    entities (.of document store config) = entities (.of document' store config) := by
  let ctx := Context.of document store config
  let ctx' := Context.of document' store config
  have agrees : ctx.Agrees ctx' := retyped.agrees config
  have sameConstants : constants ctx = constants ctx' := by
    refine constants_congr agrees ?_ fun _ _ _ _ _ => rfl
    cases retyped
    exact .refl fun d _ => .refl d
  cases retyped with
  | intro sameClasses sameConcepts sameEvents =>
    -- A step for the retyped entity is the same in either context.
    have builtin : builtinDeclarations ctx = builtinDeclarations ctx' :=
      funext fun b => builtinDeclarations_congr agrees rfl
    have global : globalDeclaration ctx = globalDeclaration ctx' :=
      funext fun object => globalDeclaration_congr agrees (.intro (.refl object.type))
    have events : each (eventDeclaration ctx) (Schema.inOrder ctx.document.events) =
        each (eventDeclaration ctx') (Schema.inOrder ctx'.document.events) :=
      each_inOrder_congr (.kept sameEvents) (fun _ _ retyped => by cases retyped; rfl)
        fun _ _ event' retyped => (eventDeclaration_retyped retyped).trans
          (eventDeclaration_congr agrees (.refl event') rfl)
    have concepts : each (conceptDeclarations ctx) (Schema.inOrder ctx.document.concepts) =
        each (conceptDeclarations ctx') (Schema.inOrder ctx'.document.concepts) :=
      each_inOrder_congr (.kept sameConcepts) (fun _ _ retyped => by cases retyped; rfl)
        fun _ _ concept' retyped => (conceptDeclarations_retyped retyped).trans
          (conceptDeclarations_congr agrees rfl (.refl concept'))
    have classes : classesFrom ctx none (Schema.inOrder ctx.document.classes) =
        classesFrom ctx' none (Schema.inOrder ctx'.document.classes) :=
      classesFrom_congr_of
        ((Shuffled.kept sameClasses).forall₂_inOrder fun _ _ retyped => by cases retyped; rfl)
        (fun _ _ c' retyped marker => (markerAt_retyped retyped marker).trans
          (markerAt_congr agrees rfl (.refl c') marker))
        (fun _ _ c' retyped => (classDeclarations_retyped retyped).trans
          (classDeclarations_congr agrees (.refl c') rfl)) none
    change entities ctx = entities ctx'
    simp only [entities, Synth.builtins, Synth.events, Synth.classes, Synth.concepts,
      Synth.globals, builtin, sameConstants, events, classes, concepts, global]
    rfl

/-- Documents that differ in the types of overridden members only have the same outcome. -/
theorem generate_retyped (retyped : document.Retyped store document') :
    generate document store config = generate document' store config := by
  have sameSegments : Synth.segments (.of document store config) =
      Synth.segments (.of document' store config) := by
    rw [Synth.segments_eq_entities, Synth.segments_eq_entities, Synth.entities_retyped retyped]
    rfl
  have sameVersion : document.applicationVersion = document'.applicationVersion := by
    cases retyped
    rfl
  rw [generate, generate, retyped.error?_eq]
  simp only [synthesize_eq, sameSegments, Generation.of, sameVersion]

/-- A document with a class, an event and two concepts, in which everything is of the type. -/
def harborDocument (type : TypeExpr) : Document where
  application := "factorio"
  stage := "runtime"
  apiVersion := 3
  classes :=
    [{ name := "LuaHarbor"
       order := 0
       methods :=
         [{ name := "find", order := 0, parameters := [.required "options" 0 type],
            variadicType := some type, returnValues := [⟨0, "", type, false⟩] }]
       attributes := [.readOnly "ships" 0 type]
       operators := [.length (.readOnly "length" 0 type)] }]
  concepts :=
    [{ name := "HarborFilter", order := 0,
       kind := .filter ⟨[.required "harbor" 0 type], [], none⟩ },
      { name := "HarborSize", order := 1, kind := .structure [.readOnly "harbor" 0 type] }]
  events := [{ name := "on_harbor_built", order := 0, data := [.required "harbor" 0 type] }]

/-- An override of the interface, with the members. -/
def interfaceOverride (name : String) (members : List Member) : Override where
  kind := .structural
  declaration := .interface { name, members }
  doc := none
  indexShape := none

def harborStore : OverrideStore :=
  .ofDistinct
    [interfaceOverride "LuaHarbor"
        [.method "find" [] none none, .plainProperty "ships" .any, .plainProperty "length" .any],
      interfaceOverride "HarborFilter" [.plainProperty "harbor" .any],
      interfaceOverride "HarborSize" [.plainProperty "harbor" .any],
      interfaceOverride "OnHarborBuiltEvent" [.plainProperty "harbor" .any]]
    (by decide +kernel) .inline

theorem harborDocument_retyped :
    (harborDocument (.named "uint")).Retyped harborStore
        (harborDocument (.dictionary (.named "LuaShip") (.named "uint"))) ∧
      (∃ g, generate (harborDocument (.named "uint")) harborStore {} = .ok g) ∧
      generate (harborDocument (.named "uint")) harborStore {} =
        generate (harborDocument (.dictionary (.named "LuaShip") (.named "uint"))) harborStore
          {} := by
  let type : TypeExpr := .dictionary (.named "LuaShip") (.named "uint")
  have retyped : (harborDocument (.named "uint")).Retyped harborStore (harborDocument type) := by
    refine .intro (.cons (.intro (.cons ?_ .nil) (.cons ?_ .nil) (.cons ?_ .nil)) .nil)
      (.cons (.intro (.filter rfl (.plain rfl (.cons ?_ .nil))))
        (.cons (.intro (.structure rfl (.cons ?_ .nil))) .nil))
      (.cons (.intro (.cons ?_ .nil)) .nil)
    · exact .overridden (by decide +kernel) (by decide) _ _ _ _ _ _ _
    · exact ⟨.overridden (by decide +kernel) type, fun fixed => absurd fixed (by decide)⟩
    · exact .length rfl (by decide +kernel) type
    · exact .overridden (by decide +kernel) type
    · exact .overridden (by decide +kernel) type
    · exact .overridden (by decide +kernel) type
  have isOk : (generate (harborDocument (.named "uint")) harborStore {}).isOk := by
    decide +kernel
  exact ⟨retyped, exists_generation_of_isOk isOk, generate_retyped retyped⟩

end Typings

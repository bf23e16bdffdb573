import Typings.Proofs.Lookup
import Typings.Synthesis.Builtins
import Typings.Synthesis.Globals

/-! # Steps for entities

Every entity of a document has a step that makes its declarations. This module says when the step
succeeds and which overrides and members it uses; both hinge on the override of the entity alone.

* `Schema.Event.asked`, `Schema.Class.asked`, `Schema.ConceptKind.asked`: the members that an entity
  asks its override for.
* `Synth.Settles`: a step with the condition for its success, and with what it uses.
* `Synth.eventDeclaration_settles`, `Synth.classDeclarations_settles`,
  `Synth.conceptDeclarations_settles`: the steps for entities that are merged with overrides.
* `Synth.runs_eventDeclaration`, `Synth.runs_classDeclarations`, `Synth.runs_structuralConcept`:
  what these steps make.
-/

namespace Typings

/-! ## What entities ask for -/

namespace Schema

/-- The members that an event asks for, in the order of its interface. -/
def Event.asked (event : Event) : List AskedMember :=
  (inOrder event.data).map Parameter.asked

/-- Whether a class has a member of its own for a method or an attribute of the name. One with the
    members that every object has leaves these to the marker interface. -/
def Class.keeps (c : Class) (name : String) : Bool :=
  !(c.hasTriad && isTriadMember name)

/-- The members that a class asks for, in the order of its interface. -/
def Class.asked (c : Class) : List AskedMember :=
  ((inOrder c.methods).filter fun m => c.keeps m.name).map Method.asked
    ++ ((inOrder c.attributes).filter fun a => c.keeps a.name).map Attribute.asked
    ++ c.lengthOperator?.toList.map Attribute.askedLength

/-- The members that a table asks for. One with variants is not merged. -/
def TableShape.asked (shape : TableShape) : List AskedMember :=
  if shape.groups.isEmpty then (inOrder shape.parameters).map Parameter.asked else []

/-- The members that a concept asks for, in the order of its interface. -/
def ConceptKind.asked : ConceptKind → List AskedMember
  | .structure attributes => (inOrder attributes).map Attribute.asked
  | .flag options => (inOrder options).map NamedOption.asked
  | .table shape => shape.asked
  | .filter shape => shape.asked
  | .prose => []
  | .union _ => []
  | .enumeration _ => []
  | .tableOrArray _ => []

def TableShape.allowed (shape : TableShape) : List OverrideKind :=
  if shape.groups.isEmpty then [.structural, .alias] else [.alias]

def ConceptKind.allowed : ConceptKind → List OverrideKind
  | .prose => [.structural, .alias]
  | .structure _ => [.structural, .alias]
  | .flag _ => [.structural, .alias]
  | .table shape => shape.allowed
  | .filter shape => shape.allowed
  | .union _ => [.alias]
  | .enumeration _ => [.alias]
  | .tableOrArray _ => [.alias]

end Schema

namespace Synth

open Schema (BuiltinType Concept ConceptKind Event GlobalObject)

variable {α β : Type} (ctx : Context)

/-! ## Steps with their conditions -/

/-- The step uses exactly these overrides and members, and if the links in the remarks are known, it
    succeeds exactly under the condition. -/
structure Settles (step : Synth α) (condition : Prop) (overrides : List String)
    (members : List (String × String)) (remarks : List String) : Prop where
  succeeds : AllKnown remarks → SucceedsIff step condition
  uses : Uses step overrides members

namespace Settles

variable {p q : Prop} {overrides overrides' : List String}
  {members members' : List (String × String)} {remarks remarks' : List String}

theorem congr {step : Synth α} (settles : Settles step p overrides members remarks)
    (same : p ↔ q) : Settles step q overrides members remarks :=
  ⟨fun known => (settles.succeeds known).congr same, settles.uses⟩

theorem mono {step : Synth α} (settles : Settles step p overrides members remarks)
    (more : AllKnown remarks' → AllKnown remarks) : Settles step p overrides members remarks' :=
  ⟨fun known => settles.succeeds (more known), settles.uses⟩

theorem pure (x : α) : Settles (Pure.pure x) True [] [] remarks :=
  ⟨fun _ => .pure x, .pure x⟩

theorem map {step : Synth α} (f : α → β) (settles : Settles step p overrides members remarks) :
    Settles (f <$> step) p overrides members remarks :=
  ⟨fun known => (settles.succeeds known).map f, settles.uses.map f⟩

theorem bind {step : Synth α} {next : α → Synth β}
    (first : Settles step p overrides members remarks)
    (second : ∀ x, Settles (next x) q overrides' members' remarks) :
    Settles (step >>= next) (p ∧ q) (overrides ++ overrides') (members ++ members') remarks :=
  ⟨fun known => (first.succeeds known).bind fun x => (second x).succeeds known,
    first.uses.bind fun x => (second x).uses⟩

theorem after {first : Synth α} {next : α → Synth β} (renders : Renders first remarks)
    (second : ∀ x, Settles (next x) p overrides members remarks) :
    Settles (first >>= next) p overrides members remarks where
  succeeds known := by
    have both := (renders.succeeds known).bind fun x => (second x).succeeds known
    exact both.congr (by simp)
  uses := renders.uses.bind fun x => (second x).uses

/-- A step may be followed by one that uses nothing. -/
theorem check {step : Synth α} {next : α → Synth β}
    (first : Settles step p overrides members remarks)
    (second : ∀ x, Settles (next x) q [] [] remarks) :
    Settles (step >>= next) (p ∧ q) overrides members remarks := by
  have both := first.bind second
  rwa [List.append_nil, List.append_nil] at both

/-- A step may be followed by one that neither fails nor uses anything. -/
theorem before {step : Synth α} {next : α → Synth β}
    (first : Settles step p overrides members remarks)
    (second : ∀ x, Settles (next x) True [] [] remarks) :
    Settles (step >>= next) p overrides members remarks :=
  (first.check second).congr (and_iff_left trivial)

/-- A step may look up an override first. -/
theorem lookupThen {entity : String} {allowed : List OverrideKind}
    {next : Option Override → Synth α}
    (continues : ctx.overrides.Allows entity allowed →
      Settles (next (ctx.overrides.get? entity)) p overrides members remarks) :
    Settles (findOverride ctx entity allowed >>= next)
      (ctx.overrides.Allows entity allowed ∧ p) (lookedUp ctx entity ++ overrides) members
      remarks where
  succeeds known := findOverride_bind_succeeds fun allows => (continues allows).succeeds known
  uses := findOverride_bind_uses fun allows => (continues allows).uses

theorem lookup {entity : String} {allowed : List OverrideKind} {next : Option Override → Synth α}
    (continues : ctx.overrides.Allows entity allowed →
      Settles (next (ctx.overrides.get? entity)) p [] members remarks) :
    Settles (findOverride ctx entity allowed >>= next)
      (ctx.overrides.Allows entity allowed ∧ p) (lookedUp ctx entity) members remarks := by
  have settles := lookupThen ctx continues
  rwa [List.append_nil] at settles

theorem each {step : α → Synth β} {xs : List α} {p : α → Prop} {overrides : α → List String}
    {members : α → List (String × String)} {remarks : α → List String}
    (settles : ∀ x ∈ xs, Settles (step x) (p x) (overrides x) (members x) (remarks x)) :
    Settles (each step xs) (∀ x ∈ xs, p x) (xs.flatMap overrides) (xs.flatMap members)
      (xs.flatMap remarks) where
  succeeds known := .each fun x isMember =>
    (settles x isMember).succeeds (allKnown_flatMap.1 known x isMember)
  uses := .each fun x isMember => (settles x isMember).uses

theorem eachInOrder [Schema.Ordered α] {step : α → Synth β} {xs : List α} {p : α → Prop}
    {overrides : α → List String} {members : α → List (String × String)}
    {remarks : α → List String}
    (settles : ∀ x ∈ xs, Settles (step x) (p x) (overrides x) (members x) (remarks x)) :
    Settles (Synth.each step (Schema.inOrder xs)) (∀ x ∈ xs, p x) (xs.flatMap overrides)
      (xs.flatMap members) (xs.flatMap remarks) := by
  have sorted := each fun x isMember => settles x (Schema.mem_inOrder.1 isMember)
  -- The order matters neither for the condition nor for what is used.
  refine ⟨fun known => (sorted.succeeds ?_).congr (by simp), sorted.uses.congr ?_ ?_⟩
  · simpa using known
  · simp
  · simp

end Settles

theorem Renders.settles {step : Synth α} {remarks : List String}
    (renders : Renders step remarks) : Settles step True [] [] remarks :=
  ⟨renders.succeeds, renders.uses⟩

theorem MergesAll.settles {step : Synth α} {view : α → List Member} {entity : String}
    {o : Option Override} {asked : List AskedMember} {remarks : List String}
    (merges : MergesAll step view entity o asked remarks) :
    Settles step (∀ a ∈ asked, a.Fits o) [] (asked.flatMap (·.claims entity o)) remarks :=
  ⟨merges.succeeds, merges.uses⟩

theorem appendUnclaimed_renders (entity : String) (o : Option Override) (members : List Member)
    {remarks : List String} : Renders (appendUnclaimed entity o members) remarks where
  succeeds _ := (SucceedsIff.get.bind fun _ => .pure _).congr (and_self_iff)
  uses := Uses.get.bind fun _ => .pure _
  fails := FailsOnly.get.bind fun _ => .pure _

theorem note_renders (advisory : Advisory) {remarks : List String} :
    Renders (note advisory) remarks :=
  (FromSchema.note advisory).renders fun _ => trivial

theorem describeEntity_renders (name description : String) (notes examples : List String)
    {remarks : List String} (more : AllKnown remarks → AllKnown (description :: notes)) :
    Renders (describeEntity ctx name description notes examples) remarks :=
  (describeEntity_fromSchema ctx name description notes examples).renders more

/-! ## Builtin types, events and globals -/

theorem plainBuiltin_settles (name : String) (doc : Option String) (remarks : List String) :
    Settles (plainBuiltin ctx name doc) True [] [] remarks := by
  rw [plainBuiltin]
  split
  · exact .pure _
  · exact .after (note_renders _) fun _ => .pure _

theorem builtinDeclarations_settles (builtin : BuiltinType) :
    Settles (builtinDeclarations ctx builtin)
      (ctx.overrides.Allows builtin.name [.structural, .alias]) (lookedUp ctx builtin.name) []
      [builtin.description] := by
  have renders := describeEntity_renders ctx builtin.name builtin.description [] [] id
  refine (Settles.lookup ctx fun _ => ?_).congr (and_iff_left trivial)
  cases ctx.overrides.get? builtin.name with
  | some o => exact .after renders fun _ => .pure _
  | none =>
    dsimp only
    split
    · exact .pure _
    · exact .after renders fun doc => (plainBuiltin_settles ctx builtin.name doc _).before
        fun _ => .pure _

theorem globalDeclaration_settles (object : GlobalObject) :
    Settles (globalDeclaration ctx object) True [] []
      (object.description :: object.type.remarks) := by
  refine .after ((mapType_renders ctx _ object.type).mono ?_) fun _ =>
    .after (describeEntity_renders ctx _ _ [] [] ?_) fun _ => .pure _
  · exact fun known => (allKnown_cons.1 known).2
  · exact fun known => allKnown_cons.2 ⟨(allKnown_cons.1 known).1, allKnown_nil⟩

/-! ## Entities that are merged with overrides -/

/-- The condition under which an entity accepts its override: it has a kind that is allowed, and
    members of the shapes that are asked for. -/
def Accepts (store : OverrideStore) (entity : String) (allowed : List OverrideKind)
    (asked : List AskedMember) : Prop :=
  store.Allows entity allowed ∧ ∀ a ∈ asked, a.Fits (store.structural? entity)

def claimed (store : OverrideStore) (entity : String) (asked : List AskedMember) :
    List (String × String) :=
  asked.flatMap (·.claims entity (store.structural? entity))

theorem mergeParameters_merges (entity : String) (o : Option Override)
    (parameters : List Schema.Parameter) :
    MergesAll (mergeParameters ctx entity o parameters) id entity o
      ((Schema.inOrder parameters).map Schema.Parameter.asked)
      (parameters.flatMap Schema.Parameter.remarks) := by
  have merges := MergesAll.each fun p (_ : p ∈ Schema.inOrder parameters) =>
    mergeParameter_merges ctx entity o p
  rw [List.map_id_fun] at merges
  exact merges.mono (by simp)

/-- An event looks for an override under the name of its interface. -/
theorem eventDeclaration_settles (event : Event) :
    Settles (eventDeclaration ctx event)
      (Accepts ctx.overrides (eventName event) [.structural] event.asked)
      (lookedUp ctx (eventName event)) (claimed ctx.overrides (eventName event) event.asked)
      event.remarks := by
  refine Settles.lookup ctx fun allows => ?_
  rw [claimed, OverrideStore.structural?_eq_get? allows]
  refine .after (describeEntity_renders ctx _ _ _ _ ?_) fun _ =>
    (((mergeParameters_merges ctx _ _ event.data).mono ?_).settles).before fun _ =>
      .after (appendUnclaimed_renders _ _ _) fun _ => .pure _
  · exact fun known => (allKnown_append.1 known).1
  · exact fun known => (allKnown_append.1 known).2

/-! ## Classes -/

section Classes

variable {c : Schema.Class}

theorem call_mem_operators {call : Schema.Method} (isFound : c.callOperator? = some call) :
    .call call ∈ c.operators := by
  obtain ⟨operator, isMember, same⟩ := List.exists_of_findSome?_eq_some isFound
  cases operator <;> cases same
  exact isMember

theorem length_mem_operators {length : Schema.Attribute}
    (isFound : c.lengthOperator? = some length) : .length length ∈ c.operators := by
  obtain ⟨operator, isMember, same⟩ := List.exists_of_findSome?_eq_some isFound
  cases operator <;> cases same
  exact isMember

theorem index_mem_operators {index : Schema.Attribute} (isFound : c.indexOperator? = some index) :
    .index index ∈ c.operators := by
  obtain ⟨operator, isMember, same⟩ := List.exists_of_findSome?_eq_some isFound
  cases operator <;> cases same
  exact isMember

theorem allKnown_class (known : AllKnown c.remarks) :
    AllKnown (c.description :: c.notes) ∧ (∀ m ∈ c.methods, AllKnown m.remarks) ∧
      (∀ a ∈ c.attributes, AllKnown a.remarks) ∧ ∀ op ∈ c.operators, AllKnown op.remarks := by
  simp only [Schema.Class.remarks, allKnown_append, allKnown_flatMap] at known
  obtain ⟨⟨⟨described, methods⟩, attributes⟩, operators⟩ := known
  exact ⟨described, methods, attributes, operators⟩

end Classes

theorem callMembers_renders (c : Schema.Class) :
    Renders (each (callMember ctx c.name) c.callOperator?.toList) c.remarks := by
  refine .each fun call isMember => (callMember_renders ctx c.name call).mono fun known => ?_
  have isOperator := call_mem_operators (Option.mem_toList.1 isMember)
  exact (allKnown_class known).2.2.2 _ isOperator

theorem mergeMethods_merges (c : Schema.Class) (o : Option Override) :
    MergesAll
      (each (mergeMethod ctx c.name o) ((Schema.inOrder c.methods).filter fun m => c.keeps m.name))
      (List.map Prod.snd) c.name o
      (((Schema.inOrder c.methods).filter fun m => c.keeps m.name).map Schema.Method.asked)
      c.remarks := by
  refine MergesAll.mono (.each fun m _ => mergeMethod_merges ctx c.name o m) fun known => ?_
  refine allKnown_flatMap.2 fun m isMember => (allKnown_class known).2.1 m ?_
  exact Schema.mem_inOrder.1 (List.mem_of_mem_filter isMember)

theorem mergeAttributes_merges (c : Schema.Class) (o : Option Override) :
    MergesAll
      (each (mergeAttribute ctx c.name o)
        ((Schema.inOrder c.attributes).filter fun a => c.keeps a.name))
      (List.map id) c.name o
      (((Schema.inOrder c.attributes).filter fun a => c.keeps a.name).map Schema.Attribute.asked)
      c.remarks := by
  refine MergesAll.mono (.each fun a _ => mergeAttribute_merges ctx c.name o a) fun known => ?_
  refine allKnown_flatMap.2 fun a isMember => (allKnown_class known).2.2.1 a ?_
  exact Schema.mem_inOrder.1 (List.mem_of_mem_filter isMember)

theorem mergeLengths_merges (c : Schema.Class) (o : Option Override) (arrayLike : Bool) :
    MergesAll (each (mergeLength ctx c.name o · arrayLike) c.lengthOperator?.toList)
      (List.map id) c.name o (c.lengthOperator?.toList.map Schema.Attribute.askedLength)
      c.remarks := by
  refine MergesAll.mono (.each fun a _ => mergeLength_merges ctx c.name o a arrayLike)
    fun known => ?_
  refine allKnown_flatMap.2 fun a isMember => (allKnown_class known).2.2.2 (.length a) ?_
  exact length_mem_operators (Option.mem_toList.1 isMember)

/-- The members of a class are merged kind by kind, each with what the override has for it. -/
theorem schemaMembers_settles (c : Schema.Class) (o : Option Override) (arrayLike : Bool) :
    Settles (schemaMembers ctx c o c.hasTriad arrayLike) (∀ a ∈ c.asked, a.Fits o) []
      (c.asked.flatMap (·.claims c.name o)) c.remarks := by
  have settles := Settles.after (callMembers_renders ctx c) fun call =>
    (mergeMethods_merges ctx c o).settles.bind fun methods =>
      (mergeAttributes_merges ctx c o).settles.bind fun attributes =>
        (mergeLengths_merges ctx c o arrayLike).settles.before fun length =>
          Settles.pure ((call ++ methods).flatMap (·.1),
            (call ++ methods).map (·.2) ++ attributes ++ length)
  simp only [Schema.Class.asked, List.flatMap_append, List.append_assoc]
  exact settles.congr (by simp [or_imp, forall_and])

/-- The members of a class are its call signature and the answers to what it asks for, in order. -/
theorem schemaMembers_answers {c : Schema.Class} {o : Option Override} {arrayLike : Bool}
    {decls : List Declaration} {members : List Member} {s s' : Session}
    (runs : Runs (schemaMembers ctx c o c.hasTriad arrayLike) s (decls, members) s') :
    ∃ calls own, members = calls ++ own ∧ List.Forall₂ (Answers o) c.asked own := by
  obtain ⟨call, t₁, _, runs⟩ := runs_bind.1 runs
  obtain ⟨methods, t₂, methodsMade, runs⟩ := runs_bind.1 runs
  obtain ⟨attributes, t₃, attributesMade, runs⟩ := runs_bind.1 runs
  obtain ⟨length, t₄, lengthMade, runs⟩ := runs_bind.1 runs
  obtain ⟨same, _⟩ := runs_pure.1 runs
  cases same
  have methodAnswers := (mergeMethods_merges ctx c o).answers _ _ _ methodsMade
  have attributeAnswers := (mergeAttributes_merges ctx c o).answers _ _ _ attributesMade
  have lengthAnswers := (mergeLengths_merges ctx c o arrayLike).answers _ _ _ lengthMade
  -- A method comes with declarations, the other members are there as they are.
  rw [List.map_id] at attributeAnswers lengthAnswers
  refine ⟨call.map (·.2), methods.map (·.2) ++ attributes ++ length, ?_, ?_⟩
  · simp only [List.map_append, List.append_assoc]
  · exact List.rel_append (List.rel_append methodAnswers attributeAnswers) lengthAnswers

/-- An array-like class can be split by the index that its override gives. -/
def IndexFits (o : Option Override) : Prop :=
  o.any (·.isArrayLike) → ∀ shape, o.bind (·.indexShape) = some shape → isIndexShape shape

theorem indexType_settles (c : Schema.Class) (o : Option Override) :
    Settles (indexType ctx c o)
      (∀ shape, o.bind (·.indexShape) = some shape → isIndexShape shape) [] [] c.remarks := by
  rw [indexType]
  cases given : o.bind (·.indexShape) with
  | some shape =>
    dsimp only
    split
    next fits => exact (Settles.pure _).congr (by simp [fits])
    next misfits =>
      refine ⟨fun _ => (SucceedsIff.throw _).congr (by simp [misfits]), .throw _⟩
  | none =>
    refine Settles.congr (p := True) ?_ (by simp)
    cases isFound : c.indexOperator? with
    | none => exact .pure _
    | some index =>
      refine .after ((mapType_renders ctx _ index.type).mono fun known => ?_) fun _ => .pure _
      have remarks := (allKnown_class known).2.2.2 _ (index_mem_operators isFound)
      exact (allKnown_append.1 remarks).2

/-- A class looks up its own override alone, and fails on it only for its kind, its members or its
index. -/
theorem classDeclarations_settles (c : Schema.Class) :
    Settles (classDeclarations ctx c)
      (Accepts ctx.overrides c.name [.structural] c.asked ∧
        IndexFits (ctx.overrides.structural? c.name))
      (lookedUp ctx c.name) (claimed ctx.overrides c.name c.asked) c.remarks := by
  rw [Accepts, and_assoc]
  refine Settles.lookup ctx fun allows => ?_
  rw [claimed, OverrideStore.structural?_eq_get? allows]
  refine .after (describeEntity_renders ctx _ _ _ _ fun known => (allKnown_class known).1)
    fun doc => ?_
  refine (schemaMembers_settles ctx c _ _).check fun made =>
    .after (appendUnclaimed_renders _ _ _) fun members => ?_
  rw [IndexFits]
  -- Only an array-like class looks at the index.
  split
  next arrayLike =>
    refine Settles.congr ?_ (forall_prop_of_true arrayLike).symm
    refine (indexType_settles ctx c _).before fun index => ?_
    cases index with
    | some index => exact .pure _
    | none => exact .after (note_renders _) fun _ => .pure _
  next plain =>
    exact (Settles.pure _).congr (by simp [plain])

/-- Without an override there is nothing to claim and nothing that may not fit. -/
theorem MergesAll.renders {step : Synth α} {view : α → List Member} {entity : String}
    {asked : List AskedMember} {remarks : List String}
    (merges : MergesAll step view entity none asked remarks) : Renders step remarks where
  succeeds known := (merges.succeeds known).congr (by simp [AskedMember.Fits, memberOf?])
  uses := by
    have uses := merges.uses
    rwa [List.flatMap_eq_nil_iff.2 fun a _ => by simp [AskedMember.claims, memberOf?]] at uses
  fails := by
    refine merges.fails.mono fun e => ?_
    rintro (unknown | ⟨a, _, found, isFound, _⟩)
    · exact unknown
    · cases isFound

/-- The marker interface comes from the schema alone. -/
theorem markerDeclarations_renders (c : Schema.Class) :
    Renders (markerDeclarations ctx c) c.remarks := by
  have help := MergesAll.each fun m (_ : m ∈ (c.method? helpMethod).toList) =>
    mergeMethod_merges ctx ctx.config.markerSupertype none m
  have attributes := MergesAll.each fun a
    (_ : a ∈ (c.attribute? validAttribute).toList ++ (c.attribute? objectNameAttribute).toList) =>
      mergeAttribute_merges ctx ctx.config.markerSupertype none a
  refine .bind (help.renders.mono fun known => ?_) fun _ =>
    .bind (attributes.renders.mono fun known => ?_) fun _ => .pure _
  · refine allKnown_flatMap.2 fun m isMember => (allKnown_class known).2.1 m ?_
    exact List.mem_of_find?_eq_some (Option.mem_toList.1 isMember)
  · refine allKnown_flatMap.2 fun a isMember => (allKnown_class known).2.2.1 a ?_
    rcases List.mem_append.1 isMember with isMember | isMember
    · exact List.mem_of_find?_eq_some (Option.mem_toList.1 isMember)
    · exact List.mem_of_find?_eq_some (Option.mem_toList.1 isMember)

/-- The marker interface is made in front of the first class that extends it, unless it has an
    override. -/
def needsMarker (ctx : Context) (marker : Option (List Declaration)) (c : Schema.Class) : Bool :=
  c.hasTriad && marker.isNone && !ctx.overrides.contains ctx.config.markerSupertype

def markerAt (ctx : Context) (marker : Option (List Declaration)) (c : Schema.Class) :
    Synth (Option (List Declaration)) :=
  if needsMarker ctx marker c then some <$> markerDeclarations ctx c else pure marker

theorem classesFrom_cons (marker : Option (List Declaration)) (c : Schema.Class)
    (cs : List Schema.Class) :
    classesFrom ctx marker (c :: cs) = do
      let marker ← markerAt ctx marker c
      let decls ← classDeclarations ctx c
      let made ← classesFrom ctx marker cs
      return (decls ++ made.1, made.2) := by
  rw [classesFrom, markerAt, ite_bind]
  rfl

theorem markerAt_renders (marker : Option (List Declaration)) (c : Schema.Class) :
    Renders (markerAt ctx marker c) c.remarks := by
  rw [markerAt]
  split
  · exact (markerDeclarations_renders ctx c).map some
  · exact .pure marker

/-- The marker interface does not count: it has no override, and it can be made whenever the class
    that needs it can. -/
theorem classesFrom_settles (marker : Option (List Declaration)) (cs : List Schema.Class) :
    Settles (classesFrom ctx marker cs)
      (∀ c ∈ cs, Accepts ctx.overrides c.name [.structural] c.asked ∧
        IndexFits (ctx.overrides.structural? c.name))
      (cs.flatMap fun c => lookedUp ctx c.name)
      (cs.flatMap fun c => claimed ctx.overrides c.name c.asked)
      (cs.flatMap Schema.Class.remarks) := by
  -- What is settled does not depend on the marker interface, which changes along the classes.
  induction cs generalizing marker with
  | nil => exact (Settles.pure _).congr (by simp)
  | cons c cs ih =>
    have here : AllKnown ((c :: cs).flatMap Schema.Class.remarks) → AllKnown c.remarks :=
      fun known => allKnown_flatMap.1 known c List.mem_cons_self
    have behind : AllKnown ((c :: cs).flatMap Schema.Class.remarks) →
        AllKnown (cs.flatMap Schema.Class.remarks) :=
      fun known => (allKnown_append.1 known).2
    rw [List.forall_mem_cons, List.flatMap_cons, List.flatMap_cons, classesFrom_cons]
    exact .after ((markerAt_renders ctx marker c).mono here) fun marker =>
      ((classDeclarations_settles ctx c).mono here).bind fun decls =>
        ((ih marker).mono behind).before fun rest => .pure (decls ++ rest.1, rest.2)

/-- The marker interface is settled before each class, from what the classes in front have left. -/
theorem runs_classesFrom_cons {marker marker'' : Option (List Declaration)} {c : Schema.Class}
    {cs : List Schema.Class} {decls : List Declaration} {s s'' : Session}
    (runs : Runs (classesFrom ctx marker (c :: cs)) s (decls, marker'') s'') :
    ∃ marker' t block t' rest, Runs (markerAt ctx marker c) s marker' t ∧
      Runs (classDeclarations ctx c) t block t' ∧
      Runs (classesFrom ctx marker' cs) t' (rest, marker'') s'' ∧ decls = block ++ rest := by
  rw [classesFrom_cons] at runs
  obtain ⟨marker', t, made, runs⟩ := runs_bind.1 runs
  obtain ⟨block, t', here, runs⟩ := runs_bind.1 runs
  obtain ⟨⟨rest, last⟩, t'', behind, runs⟩ := runs_bind.1 runs
  obtain ⟨same, rfl⟩ := runs_pure.1 runs
  cases same
  exact ⟨marker', t, block, t', rest, made, here, behind, rfl⟩

/-- Classes make a block each, in their order. -/
theorem Runs.classes {marker marker' : Option (List Declaration)} {cs : List Schema.Class}
    {decls : List Declaration} {s s' : Session}
    (runs : Runs (classesFrom ctx marker cs) s (decls, marker') s') :
    ∃ blocks,
      List.Forall₂ (fun c block => ∃ t t', Runs (classDeclarations ctx c) t block t') cs blocks ∧
        decls = blocks.flatten := by
  induction cs generalizing marker decls s with
  | nil =>
    obtain ⟨same, _⟩ := runs_pure.1 runs
    cases same
    exact ⟨[], .nil, rfl⟩
  | cons c cs ih =>
    obtain ⟨_, t, block, t', rest, _, here, behind, rfl⟩ := runs_classesFrom_cons ctx runs
    obtain ⟨blocks, each, rfl⟩ := ih behind
    exact ⟨block :: blocks, .cons ⟨t, t', here⟩ each, rfl⟩

/-! ## Concepts -/

section Concepts

variable (name : String) (doc : Option String) {remarks : List String}

theorem proseConcept_settles :
    Settles (proseConcept ctx name doc) (Accepts ctx.overrides name [.structural, .alias] [])
      (lookedUp ctx name) (claimed ctx.overrides name []) remarks := by
  refine (Settles.lookup ctx (p := True) fun _ => ?_).congr (by simp [Accepts])
  cases ctx.overrides.get? name with
  | some o => exact .pure _
  | none => exact .after (note_renders _) fun _ => .pure _

theorem aliasConcept_settles {type : Synth Ty} (renders : Renders type remarks) :
    Settles (aliasConcept ctx name doc type) (Accepts ctx.overrides name [.alias] [])
      (lookedUp ctx name) (claimed ctx.overrides name []) remarks := by
  refine (Settles.lookup ctx (p := True) fun _ => ?_).congr (by simp [Accepts])
  cases ctx.overrides.get? name with
  | some o => exact .pure _
  | none => exact .after renders fun _ => .pure _

/-- A concept that can be an interface merges its members with one, and leaves its place to an
alias. -/
theorem structuralConcept_settles {members : Option Override → Synth (List Member)}
    {view : List Member → List Member} {asked : List AskedMember}
    (merges : ∀ o, MergesAll (members o) view name o asked remarks) :
    Settles (structuralConcept ctx name doc members)
      (Accepts ctx.overrides name [.structural, .alias] asked) (lookedUp ctx name)
      (claimed ctx.overrides name asked) remarks := by
  refine Settles.lookup ctx fun allows => ?_
  rw [claimed]
  -- An alias replaces the concept as a whole, so that nothing of it is asked for.
  rcases OverrideStore.alias_or_structural allows with ⟨o, isAlias, noMerge⟩ | ⟨noAlias, merged⟩
  · have unclaimed : asked.flatMap (·.claims name none) = [] :=
      List.flatMap_eq_nil_iff.2 fun a _ => by simp [AskedMember.claims, memberOf?]
    rw [isAlias, noMerge, unclaimed]
    exact (Settles.pure _).congr (by simp [AskedMember.Fits, memberOf?])
  · rw [noAlias, merged]
    exact (merges _).settles.before fun own =>
      .after (appendUnclaimed_renders _ _ _) fun _ => .pure _

/-- A table with variants asks for no members, so that only an alias can take its place. -/
theorem tableConcept_settles (concept : Concept) (shape : Schema.TableShape) :
    Settles (tableConcept ctx concept shape doc)
      (Accepts ctx.overrides concept.name shape.allowed shape.asked) (lookedUp ctx concept.name)
      (claimed ctx.overrides concept.name shape.asked)
      (Schema.tableRemarks shape.parameters shape.groups) := by
  rw [tableConcept, Schema.TableShape.allowed, Schema.TableShape.asked]
  split
  · refine (structuralConcept_settles ctx concept.name doc fun o =>
      mergeParameters_merges ctx concept.name o shape.parameters).mono allKnown_shared
  · refine (Settles.lookup ctx (p := True) fun _ => ?_).congr (by simp [Accepts])
    cases ctx.overrides.get? concept.name with
    | some o => exact .pure _
    | none => exact (expandVariants_renders ctx _ doc).settles

theorem documentedConcept_settles (concept : Concept) :
    Settles (documentedConcept ctx concept doc)
      (Accepts ctx.overrides concept.name concept.kind.allowed concept.kind.asked)
      (lookedUp ctx concept.name) (claimed ctx.overrides concept.name concept.kind.asked)
      concept.kind.remarks := by
  rw [documentedConcept]
  cases concept.kind with
  | prose => exact proseConcept_settles ctx concept.name doc
  | union options =>
    exact aliasConcept_settles ctx concept.name doc (unionType_renders ctx concept.name options)
  | enumeration options => exact aliasConcept_settles ctx concept.name doc (.pure _)
  | tableOrArray parameters =>
    exact aliasConcept_settles ctx concept.name doc
      (tableOrArrayType_renders ctx concept.name parameters)
  | «structure» attributes =>
    refine structuralConcept_settles ctx concept.name doc fun o =>
      MergesAll.mono (.each fun a _ => mergeAttribute_merges ctx concept.name o a) ?_
    simp [ConceptKind.remarks]
  | flag options =>
    refine structuralConcept_settles ctx concept.name doc fun o =>
      MergesAll.mono (.each fun option _ => flagMember_merges ctx concept.name o option) ?_
    simp [ConceptKind.remarks]
  | table shape => exact tableConcept_settles ctx doc concept shape
  | filter shape => exact tableConcept_settles ctx doc concept shape

end Concepts

/-- The documentation of a concept comes first, with remarks of its own. -/
theorem conceptDeclarations_settles (concept : Concept) :
    Settles (conceptDeclarations ctx concept)
      (Accepts ctx.overrides concept.name concept.kind.allowed concept.kind.asked)
      (lookedUp ctx concept.name) (claimed ctx.overrides concept.name concept.kind.asked)
      concept.remarks := by
  refine .after (describeEntity_renders ctx _ _ _ _ fun known => ?_) fun doc =>
    (documentedConcept_settles ctx doc concept).mono fun known => ?_
  · exact (allKnown_append.1 known).1
  · exact (allKnown_append.1 known).2

/-! ## What the steps make -/

section Results

variable {ctx} {s s' : Session}

/-- The sessions have the same members as used. -/
def SameMembers (s s' : Session) : Prop :=
  ∀ use, use ∈ s'.usedMembers ↔ use ∈ s.usedMembers

theorem Uses.sameMembers {step : Synth α} {overrides : List String}
    {members : List (String × String)} {x : α} (uses : Uses step overrides members)
    (runs : Runs step s x s') (noMembers : members = []) : SameMembers s s' := by
  intro use
  rw [(uses s x s' runs).2 use, noMembers]
  simp

theorem unclaimedMembers_congr (entity : String) (o : Option Override) (same : SameMembers s s') :
    unclaimedMembers entity o s' = unclaimedMembers entity o s := by
  cases o with
  | none => rfl
  | some o =>
    refine List.filter_congr fun member _ => ?_
    cases member.name? with
    | none => rfl
    | some name => simp only [Session.hasUsedMember, List.contains_eq_mem, same (entity, name)]

theorem runs_appendUnclaimed {entity : String} {o : Option Override} {own members : List Member}
    (runs : Runs (appendUnclaimed entity o own) s members s') :
    members = own ++ unclaimedMembers entity o s ∧ s = s' := by
  obtain ⟨_, _, got, runs⟩ := runs_bind.1 runs
  obtain ⟨rfl, rfl⟩ := runs_get.1 got
  obtain ⟨rfl, rfl⟩ := runs_pure.1 runs
  exact ⟨rfl, rfl⟩

/-- How a run of the step goes: the override, the documentation, the members, and the rest of the
override. -/
theorem runs_eventDeclaration {event : Event} {decl : Declaration}
    (runs : Runs (eventDeclaration ctx event) s decl s') :
    ∃ o doc own t t', ctx.overrides.structural? (eventName event) = o ∧
      Runs (describeEntity ctx event.name event.description event.notes event.examples) t doc t' ∧
      Runs (mergeParameters ctx (eventName event) o event.data) t' own s' ∧
      decl = mergedInterface (eventName event) o
        (own ++ unclaimedMembers (eventName event) o s') doc := by
  obtain ⟨allows, t, _, runs⟩ := runs_findOverride_bind runs
  rw [← OverrideStore.structural?_eq_get? allows] at runs
  obtain ⟨doc, t', described, runs⟩ := runs_bind.1 runs
  obtain ⟨own, u, made, runs⟩ := runs_bind.1 runs
  obtain ⟨members, u', appended, runs⟩ := runs_bind.1 runs
  obtain ⟨rfl, rfl⟩ := runs_pure.1 runs
  obtain ⟨rfl, rfl⟩ := runs_appendUnclaimed appended
  exact ⟨_, doc, own, t, t', rfl, described, made, rfl⟩

/-- The declarations for a class itself: split, if there is an index, and an interface otherwise. -/
def classBlock (name : String) (supertypes : List Ty) (members : List Member)
    (doc : Option String) : Option Ty → List Declaration
  | some index => splitClass name supertypes members index doc
  | none => [.interface ⟨name, supertypes, members, doc⟩]

/-- How a run of the step goes: the override, the documentation, the members, and the index if there
is one. -/
theorem runs_classDeclarations {c : Schema.Class} {block : List Declaration}
    (runs : Runs (classDeclarations ctx c) s block s') :
    ∃ o doc decls own index t t' t'', ctx.overrides.structural? c.name = o ∧
      Runs (describeEntity ctx c.name c.description c.notes c.examples) t doc t' ∧
      Runs (schemaMembers ctx c o c.hasTriad (o.any (·.isArrayLike))) t' (decls, own) t'' ∧
      (if o.any (·.isArrayLike) then ∃ u, Runs (indexType ctx c o) t'' index u
        else index = none) ∧
      SameMembers t'' s' ∧
      block = decls ++ classBlock c.name (classSupertypes ctx c o c.hasTriad)
        (own ++ unclaimedMembers c.name o s') doc index := by
  obtain ⟨allows, t, _, runs⟩ := runs_findOverride_bind runs
  rw [← OverrideStore.structural?_eq_get? allows] at runs
  obtain ⟨doc, t', described, runs⟩ := runs_bind.1 runs
  obtain ⟨⟨decls, own⟩, t'', schema, runs⟩ := runs_bind.1 runs
  obtain ⟨members, u, appended, runs⟩ := runs_bind.1 runs
  obtain ⟨rfl, rfl⟩ := runs_appendUnclaimed appended
  refine ⟨ctx.overrides.structural? c.name, doc, decls, own, ?_⟩
  -- The interface is made after the members, but nothing is claimed in between.
  split at runs
  next arrayLike =>
    obtain ⟨index, u, indexed, runs⟩ := runs_bind.1 runs
    have same := (indexType_settles ctx c _).uses.sameMembers indexed rfl
    refine ⟨index, t, t', t'', rfl, described, schema, ?_⟩
    rw [if_pos arrayLike]
    cases index with
    | some index =>
      obtain ⟨rfl, rfl⟩ := runs_pure.1 runs
      rw [unclaimedMembers_congr _ _ same]
      exact ⟨⟨u, indexed⟩, same, rfl⟩
    | none =>
      obtain ⟨_, u', noted, runs⟩ := runs_bind.1 runs
      obtain ⟨rfl, rfl⟩ := runs_pure.1 runs
      have same' : SameMembers t'' u' :=
        fun use => ((Uses.note _).sameMembers noted rfl use).trans (same use)
      rw [unclaimedMembers_congr _ _ same']
      exact ⟨⟨u, indexed⟩, same', rfl⟩
  next plain =>
    obtain ⟨rfl, rfl⟩ := runs_pure.1 runs
    refine ⟨none, t, t', t'', rfl, described, schema, ?_⟩
    rw [if_neg plain]
    exact ⟨rfl, fun _ => Iff.rfl, rfl⟩

/-- An alias stands for the concept; otherwise the concept is merged with the interface. -/
theorem runs_structuralConcept {name : String} {doc : Option String}
    {members : Option Override → Synth (List Member)} {block : List Declaration}
    (runs : Runs (structuralConcept ctx name doc members) s block s') :
    (∃ o, ctx.overrides.get? name = some o ∧ o.kind = .alias ∧ block = [verbatim o doc]) ∨
      ∃ o own t, ctx.overrides.structural? name = o ∧ Runs (members o) t own s' ∧
        block = [mergedInterface name o (own ++ unclaimedMembers name o s') doc] := by
  obtain ⟨allows, t, _, runs⟩ := runs_findOverride_bind runs
  rcases OverrideStore.alias_or_structural allows with ⟨o, isAlias, _⟩ | ⟨notAlias, same⟩
  · rw [isAlias] at runs
    obtain ⟨rfl, rfl⟩ := runs_pure.1 runs
    obtain ⟨isFound, isKind⟩ := Option.filter_eq_some_iff.1 isAlias
    exact .inl ⟨o, isFound, by simpa using isKind, rfl⟩
  · rw [notAlias, ← same] at runs
    obtain ⟨own, u, made, runs⟩ := runs_bind.1 runs
    obtain ⟨all, u', appended, runs⟩ := runs_bind.1 runs
    obtain ⟨rfl, rfl⟩ := runs_pure.1 runs
    obtain ⟨rfl, rfl⟩ := runs_appendUnclaimed appended
    exact .inr ⟨_, own, t, rfl, made, rfl⟩

end Results

end Synth

end Typings

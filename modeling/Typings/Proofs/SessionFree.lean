import Typings.Proofs.SchemaStep

/-! # Steps that do not look at the session

Documentation and types are made from the schema alone. A step that makes them has one result for
all sessions, and what it notes is on links and on keys of dictionaries.

* `Synth.Makes`: a result that a step has in every session.
* `Synth.SessionFree`: the steps that do not look at the session.
* `Synth.SessionFree.makes`: the result of such a step in one session is its result in all.
-/

namespace Typings

open Schema (Attribute Method Parameter ParameterGroup TypeExpr)
open Text (Documentation Piece)

/-- Whether the advisory is on a link or on the key of a dictionary. -/
def Advisory.isLookup : Advisory → Bool
  | .unresolvedLink _ _ => true
  | .nonIndexableKey _ _ => true
  | .missingBuiltinDefinition _ => false
  | .missingConstantDefinition _ => false
  | .missingConceptDefinition _ => false
  | .missingIndexShape _ => false

namespace Synth

variable {α β : Type}

/-- The step succeeds with `x` whatever the session. -/
def Makes (step : Synth α) (x : α) : Prop :=
  ∀ s, ∃ s', Runs step s x s'

theorem Makes.unique {step : Synth α} {x y : α} (makes : Makes step x) (makes' : Makes step y) :
    x = y := by
  obtain ⟨_, runs⟩ := makes {}
  obtain ⟨_, runs'⟩ := makes' {}
  rw [Runs, runs] at runs'
  cases runs'
  rfl

/-- The step has the same outcome in every session, and it notes the same lookups. -/
def SessionFree (step : Synth α) : Prop :=
  ∃ result added, (∀ advisory ∈ added, Advisory.isLookup advisory) ∧
    ∀ s, outcome step s = (result, { s with advisories := s.advisories ++ added })

namespace SessionFree

/-- A step that runs in one session runs in all of them. -/
theorem makes {step : Synth α} {s s' : Session} {x : α} (free : SessionFree step)
    (runs : Runs step s x s') : Makes step x := by
  obtain ⟨result, added, _, same⟩ := free
  -- The run in `s` tells which result it is.
  have isResult : result = .ok x := by
    rw [Runs, same] at runs
    cases runs
    rfl
  subst isResult
  exact fun t => ⟨_, same t⟩

theorem pure (x : α) : SessionFree (Pure.pure x) := by
  refine ⟨.ok x, [], by simp, fun s => ?_⟩
  rw [List.append_nil]
  rfl

theorem throw (e : SynthesisError) : SessionFree (throw e : Synth α) := by
  refine ⟨.error e, [], by simp, fun s => ?_⟩
  rw [List.append_nil]
  rfl

theorem note {advisory : Advisory} (isLookup : advisory.isLookup) : SessionFree (note advisory) :=
  ⟨.ok (), [advisory], by simpa using isLookup, fun _ => rfl⟩

theorem bind {step : Synth α} {next : α → Synth β} (first : SessionFree step)
    (second : ∀ x, SessionFree (next x)) : SessionFree (step >>= next) := by
  obtain ⟨result, added, lookups, same⟩ := first
  cases result with
  | error e => exact ⟨.error e, added, lookups, fun s => by rw [outcome_bind, same]⟩
  | ok x =>
    obtain ⟨result, added', lookups', same'⟩ := second x
    refine ⟨result, added ++ added', fun advisory isNoted => ?_, fun s => ?_⟩
    · rcases List.mem_append.1 isNoted with isNoted | isNoted
      · exact lookups advisory isNoted
      · exact lookups' advisory isNoted
    · simp only [outcome_bind, same, same', List.append_assoc]

theorem map {step : Synth α} (f : α → β) (free : SessionFree step) : SessionFree (f <$> step) := by
  rw [map_eq_pure_bind]
  exact free.bind fun x => pure (f x)

theorem each {step : α → Synth β} {xs : List α} (free : ∀ x ∈ xs, SessionFree (step x)) :
    SessionFree (each step xs) := by
  induction xs with
  | nil => exact pure []
  | cons x xs ih =>
    have first := free x List.mem_cons_self
    have others := ih fun y isMember => free y (List.mem_cons_of_mem x isMember)
    exact first.bind fun _ => others.bind fun _ => pure _

end SessionFree

/-! ## Documentation -/

variable (ctx : Context)

theorem unresolved_free (context reference : String) :
    SessionFree (unresolved ctx context reference) :=
  (SessionFree.note rfl).bind fun _ => .pure _

theorem resolve_free (context reference : String) :
    SessionFree (resolve ctx context reference) := by
  rw [resolve]
  cases ctx.lookup? reference with
  | some url => exact .pure url
  | none => exact unresolved_free ctx context reference

theorem resolveTarget_free (context : String) (target : List Char) :
    SessionFree (resolveTarget ctx context target) := by
  rw [resolveTarget]
  cases Target.of target with
  | address => exact .pure _
  | reference => exact resolve_free ctx context _
  | operator container fragment =>
    dsimp only
    cases ctx.entityPage? container with
    | none => exact unresolved_free ctx context _
    | some url => exact .pure _
  | unknownOperator => exact .throw _

theorem renderLinks_free (context text : String) : SessionFree (renderLinks ctx context text) := by
  refine (SessionFree.each fun piece _ => ?_).bind fun _ => .pure _
  cases piece with
  | char c => exact .pure _
  | link link => exact (resolveTarget_free ctx context _).bind fun _ => .pure _

theorem documentation_free (context : String) (source : Documentation) :
    SessionFree (documentation ctx context source) := by
  refine (renderLinks_free ctx context _).bind fun _ =>
    (SessionFree.each fun note _ => renderLinks_free ctx context note).bind fun _ => ?_
  cases source.see with
  | some reference => exact ((resolve_free ctx context reference).map some).bind fun _ => .pure _
  | none => exact (SessionFree.pure none).bind fun _ => .pure _

theorem describe_free (context description : String) :
    SessionFree (describe ctx context description) :=
  documentation_free ctx context { description }

theorem describeEntity_free (name description : String) (notes examples : List String) :
    SessionFree (describeEntity ctx name description notes examples) :=
  documentation_free ctx name _

/-! ## Types -/

theorem dictionaryType_free (context : String) (key : TypeExpr) (keyType valueType : Ty) :
    SessionFree (dictionaryType ctx context key keyType valueType) := by
  rw [dictionaryType]
  split
  · exact .pure _
  · exact (SessionFree.note rfl).bind fun _ => .pure _

theorem mapArguments_free (context : String) (number : Nat) {types : List TypeExpr}
    (maps : ∀ t ∈ types, SessionFree (mapType ctx context t)) :
    SessionFree (mapArguments ctx context number types) := by
  induction types generalizing number with
  | nil =>
    rw [mapArguments]
    exact .pure _
  | cons type types ih =>
    rw [mapArguments]
    have first := maps type List.mem_cons_self
    have others := ih (number + 1) fun t isMember => maps t (List.mem_cons_of_mem type isMember)
    exact first.bind fun _ => others.bind fun _ => .pure _

theorem parameterProperty_free (context : String) (parameter : Parameter)
    (maps : ∀ inner, SessionFree (mapType ctx inner parameter.type)) :
    SessionFree (parameterProperty ctx context parameter) := by
  obtain ⟨name, order, description, type, optional⟩ := parameter
  rw [parameterProperty]
  exact (maps _).bind fun _ => (describe_free ctx _ description).bind fun _ => .pure _

/-- Mapping a type notes what it looks up, but uses no overrides. -/
theorem mapType_free (context : String) (type : TypeExpr) :
    SessionFree (mapType ctx context type) := by
  -- The context names the way to the type, so it changes from a type to those inside it.
  induction type using TypeExpr.induct generalizing context with
  | named name =>
    rw [mapType]
    exact .pure _
  | array value ih =>
    rw [mapType]
    exact (ih context).bind fun _ => .pure _
  | dictionary key value ihKey ihValue =>
    rw [mapType]
    exact (ihKey context).bind fun _ => (ihValue context).bind fun _ =>
      dictionaryType_free ctx context key _ _
  | variant options ih =>
    rw [mapType, mapTypes_eq_each]
    exact (SessionFree.each fun t isMember => ih t isMember context).bind fun _ => .pure _
  | function parameters ih =>
    rw [mapType]
    exact (mapArguments_free ctx context 1 fun t isMember => ih t isMember context).bind
      fun _ => .pure _
  | lazy value ih =>
    rw [mapType]
    exact (ih context).bind fun _ => .pure _
  | customTable key value ihKey ihValue =>
    rw [mapType]
    exact (ihKey context).bind fun _ => (ihValue context).bind fun _ => .pure _
  | table parameters groups groupDescription ih =>
    rw [mapType, mapShape, parameterSteps_eq_map, inOrder_placed]
    exact (SessionFree.each fun p isMember =>
      parameterProperty_free ctx context p (ih p (Schema.mem_inOrder.1 isMember))).bind
        fun _ => .pure _

theorem parameterMembers_free (context : String) (parameters : List Parameter) :
    SessionFree (parameterMembers ctx context parameters) := by
  rw [parameterMembers_eq_each]
  exact .each fun p _ => parameterProperty_free ctx context p fun inner =>
    mapType_free ctx inner p.type

theorem expandVariants_free (table : VariantTable) (doc : Option String) :
    SessionFree (expandVariants ctx table doc) := by
  have base : SessionFree (variantBase ctx table) :=
    (parameterMembers_free ctx _ _).bind fun _ => .pure _
  have group (group : ParameterGroup) : SessionFree (variantGroup ctx table group) :=
    (parameterMembers_free ctx _ _).bind fun _ => .pure _
  exact base.bind fun _ => (SessionFree.each fun g _ => group g).bind fun _ => .pure _

/-! ## Signatures -/

theorem positionalParamsFrom_free (context : String) (last : Option Nat) (index : Nat)
    (parameters : List Parameter) :
    SessionFree (positionalParamsFrom ctx context last index parameters) := by
  induction parameters generalizing index with
  | nil =>
    rw [positionalParamsFrom]
    exact .pure _
  | cons parameter rest ih =>
    rw [positionalParamsFrom]
    exact (mapType_free ctx _ parameter.type).bind fun ty => (ih _).bind fun _ => .pure _

theorem methodParams_free (className : String) (method : Method) :
    SessionFree (methodParams ctx className method) := by
  rw [methodParams]
  split
  next takesTable =>
    refine SessionFree.bind ?_ fun _ => .pure _
    rw [tableParam]
    split
    · exact (parameterMembers_free ctx _ _).bind fun _ => .pure _
    · exact (expandVariants_free ctx _ none).bind fun _ => .pure _
  next positional => exact (positionalParamsFrom_free ctx _ _ _ _).bind fun _ => .pure _

theorem variadicParams_free (context : String) (type : Option TypeExpr) :
    SessionFree (variadicParams ctx context type) := by
  cases type with
  | none => exact .pure _
  | some type => exact (mapType_free ctx context type).bind fun _ => .pure _

theorem returnType_free (context : String) (values : List Schema.ReturnValue) :
    SessionFree (returnType ctx context values) :=
  (SessionFree.each fun value _ => (mapType_free ctx context value.type).bind fun _ =>
    .pure _).bind fun _ => .pure _

theorem signature_free (className : String) (method : Method) :
    SessionFree (signature ctx className method) :=
  (methodParams_free ctx className method).bind fun _ =>
    (variadicParams_free ctx _ method.variadicType).bind fun _ =>
      (returnType_free ctx _ method.returnValues).bind fun _ => .pure _

theorem methodDoc_free (context : String) (method : Method) :
    SessionFree (methodDoc ctx context method) :=
  documentation_free ctx context _

theorem callMember_free (className : String) (call : Method) :
    SessionFree (callMember ctx className call) :=
  (methodDoc_free ctx _ call).bind fun _ => (signature_free ctx className call).bind fun _ =>
    .pure _

/-! ## Members of classes -/

theorem synthesizeAttribute_free (entity : String) (attr : Attribute) :
    SessionFree (synthesizeAttribute ctx entity attr) := by
  refine (mapType_free ctx _ attr.type).bind fun ty => ?_
  split
  · exact .pure _
  · exact .pure _

theorem synthesizeLength_free (context : String) (length : Attribute) (arrayLike : Bool) :
    SessionFree (synthesizeLength ctx context length arrayLike) :=
  (mapType_free ctx context length.type).bind fun _ => .pure _

theorem indexType_free (c : Schema.Class) (o : Option Override) :
    SessionFree (indexType ctx c o) := by
  rw [indexType]
  split
  next shape _ _ =>
    split
    · exact .pure _
    · exact .throw _
  next index _ _ => exact (mapType_free ctx _ index.type).bind fun _ => .pure _
  next => exact .pure _

end Synth

end Typings

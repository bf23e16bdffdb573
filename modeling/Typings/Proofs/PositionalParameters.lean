import Typings.Proofs.VariantTables

/-! # Agreement on parameters by position

A list of parameters is made into the parameters of a method, and into the elements of a tuple. Both
ways take the parameters in order and let only those at the end be left out.

* `Synth.Alike`: steps with the same result, whatever they note.
* `Synth.mapType_alike`: a type is mapped to the same type wherever it stands.
* `Synth.AreElementsFor`: the elements for parameters in order.
* `Synth.trailing_iff`: what the position of the last required parameter tells at an index.
* `Synth.positional_agree`: parameters and elements by position are the same.
-/

namespace Typings

open Schema (Parameter SortedFrom TypeExpr)
open Text (Documentation)

/-- The options of a union; any other type is the only one of its own. -/
def Ty.options : Ty → List Ty
  | .union options => options
  | ty => [ty]

theorem Ty.orUndefined_eq (ty : Ty) :
    ty.orUndefined = .union (ty.options ++ [.keyword .undefined]) := by
  cases ty <;> rfl

namespace Synth

variable {α β : Type}

/-! ## Results in any context -/

/-- The steps have the same result in all sessions, or they both fail in all of them. -/
def Alike (step step' : Synth α) : Prop :=
  ∀ s s', (outcome step s).1.toOption = (outcome step' s').1.toOption

namespace Alike

theorem pure (x : α) : Alike (Pure.pure x) (Pure.pure x) :=
  fun _ _ => rfl

theorem throw (e e' : SynthesisError) : Alike (throw e : Synth α) (throw e') :=
  fun _ _ => rfl

theorem note (advisory advisory' : Advisory) : Alike (note advisory) (note advisory') :=
  fun _ _ => rfl

/-- Sequences are alike if their steps are. -/
theorem bind {step step' : Synth α} {next next' : α → Synth β} (first : Alike step step')
    (second : ∀ x, Alike (next x) (next' x)) : Alike (step >>= next) (step' >>= next') := by
  intro s s'
  have same := first s s'
  rw [outcome_bind, outcome_bind]
  generalize outcome step s = made, outcome step' s' = made' at same ⊢
  obtain ⟨result, left⟩ := made
  obtain ⟨result', left'⟩ := made'
  cases result with
  | error e =>
    cases result' with
    | error e' => rfl
    | ok x' => cases same
  | ok x =>
    cases result' with
    | error e' => cases same
    | ok x' =>
      cases same
      exact second x left left'

theorem map {step step' : Synth α} (f : α → β) (alike : Alike step step') :
    Alike (f <$> step) (f <$> step') := by
  rw [map_eq_pure_bind, map_eq_pure_bind]
  exact alike.bind fun x => pure (f x)

theorem each {step step' : α → Synth β} {xs : List α}
    (alike : ∀ x ∈ xs, Alike (step x) (step' x)) : Alike (each step xs) (each step' xs) := by
  induction xs with
  | nil => exact pure []
  | cons x xs ih =>
    have first := alike x List.mem_cons_self
    have others := ih fun y isMember => alike y (List.mem_cons_of_mem x isMember)
    exact first.bind fun _ => others.bind fun _ => pure _

/-- What runs in one session succeeds in all, and so does what is alike. -/
theorem makes {step step' : Synth α} {s s' : Session} {x : α} (alike : Alike step step')
    (runs : Runs step s x s') : Makes step' x := by
  intro t
  have same := alike s t
  rw [runs] at same
  rcases made : outcome step' t with ⟨result, t'⟩
  rw [made] at same
  cases result with
  | error e => cases same
  | ok x' =>
    cases same
    exact ⟨t', made⟩

end Alike

section Contexts

variable (ctx : Context) (context context' : String)

theorem unresolved_alike (reference : String) :
    Alike (unresolved ctx context reference) (unresolved ctx context' reference) :=
  (Alike.note _ _).bind fun _ => .pure _

theorem resolve_alike (reference : String) :
    Alike (resolve ctx context reference) (resolve ctx context' reference) := by
  rw [resolve, resolve]
  cases ctx.lookup? reference with
  | some url => exact .pure url
  | none => exact unresolved_alike ctx context context' reference

theorem resolveTarget_alike (target : List Char) :
    Alike (resolveTarget ctx context target) (resolveTarget ctx context' target) := by
  rw [resolveTarget, resolveTarget]
  cases Target.of target with
  | address => exact .pure _
  | reference => exact resolve_alike ctx context context' _
  | operator container fragment =>
    dsimp only
    cases ctx.entityPage? container with
    | none => exact unresolved_alike ctx context context' _
    | some url => exact .pure _
  | unknownOperator => exact .throw _ _

theorem renderLinks_alike (text : String) :
    Alike (renderLinks ctx context text) (renderLinks ctx context' text) := by
  refine (Alike.each fun piece _ => ?_).bind fun _ => .pure _
  cases piece with
  | char c => exact .pure _
  | link link => exact (resolveTarget_alike ctx context context' _).bind fun _ => .pure _

theorem documentation_alike (source : Documentation) :
    Alike (documentation ctx context source) (documentation ctx context' source) := by
  refine (renderLinks_alike ctx context context' _).bind fun _ =>
    (Alike.each fun note _ => renderLinks_alike ctx context context' note).bind fun _ => ?_
  cases source.see with
  | some reference =>
    exact ((resolve_alike ctx context context' reference).map some).bind fun _ => .pure _
  | none => exact (Alike.pure none).bind fun _ => .pure _

theorem dictionaryType_alike (key : TypeExpr) (keyType valueType : Ty) :
    Alike (dictionaryType ctx context key keyType valueType)
      (dictionaryType ctx context' key keyType valueType) := by
  rw [dictionaryType, dictionaryType]
  split
  · exact .pure _
  · exact (Alike.note _ _).bind fun _ => .pure _

theorem mapArguments_alike (number : Nat) {types : List TypeExpr}
    (maps : ∀ t ∈ types, Alike (mapType ctx context t) (mapType ctx context' t)) :
    Alike (mapArguments ctx context number types) (mapArguments ctx context' number types) := by
  induction types generalizing number with
  | nil =>
    rw [mapArguments, mapArguments]
    exact .pure _
  | cons type types ih =>
    rw [mapArguments, mapArguments]
    have first := maps type List.mem_cons_self
    have others := ih (number + 1) fun t isMember => maps t (List.mem_cons_of_mem type isMember)
    exact first.bind fun _ => others.bind fun _ => .pure _

theorem parameterProperty_alike (parameter : Parameter)
    (maps : ∀ inner inner', Alike (mapType ctx inner parameter.type)
      (mapType ctx inner' parameter.type)) :
    Alike (parameterProperty ctx context parameter) (parameterProperty ctx context' parameter) := by
  obtain ⟨name, order, description, type, optional⟩ := parameter
  rw [parameterProperty, parameterProperty]
  exact (maps _ _).bind fun _ => (documentation_alike ctx _ _ _).bind fun _ => .pure _

/-- A type is mapped to the same type wherever it stands. -/
theorem mapType_alike (type : TypeExpr) :
    Alike (mapType ctx context type) (mapType ctx context' type) := by
  -- The contexts name the ways to the type, so they change from a type to those inside it.
  induction type using TypeExpr.induct generalizing context context' with
  | named name =>
    rw [mapType, mapType]
    exact .pure _
  | array value ih =>
    rw [mapType, mapType]
    exact (ih context context').bind fun _ => .pure _
  | dictionary key value ihKey ihValue =>
    rw [mapType, mapType]
    exact (ihKey context context').bind fun _ => (ihValue context context').bind fun _ =>
      dictionaryType_alike ctx context context' key _ _
  | variant options ih =>
    rw [mapType, mapType, mapTypes_eq_each, mapTypes_eq_each]
    exact (Alike.each fun t isMember => ih t isMember context context').bind fun _ => .pure _
  | function parameters ih =>
    rw [mapType, mapType]
    exact (mapArguments_alike ctx context context' 1 fun t isMember =>
      ih t isMember context context').bind fun _ => .pure _
  | lazy value ih =>
    rw [mapType, mapType]
    exact (ih context context').bind fun _ => .pure _
  | customTable key value ihKey ihValue =>
    rw [mapType, mapType]
    exact (ihKey context context').bind fun _ => (ihValue context context').bind fun _ => .pure _
  | table parameters groups groupDescription ih =>
    rw [mapType, mapType, mapShape, mapShape, parameterSteps_eq_map, parameterSteps_eq_map,
      inOrder_placed, inOrder_placed]
    exact (Alike.each fun p isMember => parameterProperty_alike ctx context context' p
      (ih p (Schema.mem_inOrder.1 isMember))).bind fun _ => .pure _

end Contexts

/-! ## Elements -/

/-- The element for a parameter with others behind it. It can be left out if the parameter and all
    of the others are optional; where it cannot, an optional parameter may be `undefined`. -/
structure IsElementFor (ctx : Context) (p : Parameter) (rest : List Parameter)
    (element : TupleElement) : Prop where
  name : element.name = p.name
  optional : element.optional ↔ p.optional ∧ ∀ later ∈ rest, later.optional
  type : ∃ ty, (∀ context, Makes (mapType ctx context p.type) ty) ∧
    (element.optional ∨ ¬ p.optional → element.ty = ty) ∧
    (p.optional ∧ (∃ later ∈ rest, ¬ later.optional) →
      element.ty = .union (ty.options ++ [.keyword .undefined]))

/-- The elements for parameters, which are in order. -/
inductive AreElementsFor (ctx : Context) : List Parameter → List TupleElement → Prop
  | nil : AreElementsFor ctx [] []
  | cons {p : Parameter} {rest : List Parameter} {element : TupleElement}
      {elements : List TupleElement} (here : IsElementFor ctx p rest element)
      (others : AreElementsFor ctx rest elements) :
      AreElementsFor ctx (p :: rest) (element :: elements)

section Elements

variable {ctx : Context} {p : Parameter} {rest : List Parameter}

/-- There is one element for a parameter, as mapping its type has one result. -/
theorem IsElementFor.unique {element element' : TupleElement}
    (made : IsElementFor ctx p rest element) (made' : IsElementFor ctx p rest element') :
    element = element' := by
  obtain ⟨ty, mapped, kept, widened⟩ := made.type
  obtain ⟨ty', mapped', kept', widened'⟩ := made'.type
  obtain rfl := (mapped p.name).unique (mapped' p.name)
  have sameOptional : element.optional = element'.optional :=
    Bool.eq_iff_iff.2 (made.optional.trans made'.optional.symm)
  -- The type is kept or widened, and which of these it is hinges on the parameters alone.
  have sameType : element.ty = element'.ty := by
    by_cases isKept : element.optional ∨ ¬ p.optional
    · rw [kept isKept, kept' (by rwa [← sameOptional])]
    · rw [made.optional, not_or, not_and, not_not] at isKept
      have isWidened : p.optional ∧ ∃ later ∈ rest, ¬ later.optional :=
        ⟨isKept.2, by simpa using isKept.1 isKept.2⟩
      rw [widened isWidened, widened' isWidened]
  have sameName := made.name.trans made'.name.symm
  cases element
  cases element'
  simp_all

/-- There is one list of elements for the parameters. -/
theorem AreElementsFor.unique {parameters : List Parameter} {elements elements' : List TupleElement}
    (made : AreElementsFor ctx parameters elements)
    (made' : AreElementsFor ctx parameters elements') : elements = elements' := by
  induction made generalizing elements' with
  | nil =>
    cases made'
    rfl
  | cons here _ ih =>
    cases made' with
    | cons here' others' => rw [here.unique here', ih others']

theorem AreElementsFor.optional {parameters : List Parameter} {elements : List TupleElement}
    (made : AreElementsFor ctx parameters elements) (isOptional : ∀ p ∈ parameters, p.optional) :
    ∀ element ∈ elements, element.optional := by
  induction made with
  | nil => simp
  | cons here _ ih =>
    obtain ⟨first, others⟩ := List.forall_mem_cons.1 isOptional
    exact List.forall_mem_cons.2 ⟨here.optional.2 ⟨first, others⟩, ih others⟩

/-- No element that is required comes behind one that can be left out. -/
theorem AreElementsFor.pairwise {parameters : List Parameter} {elements : List TupleElement}
    (made : AreElementsFor ctx parameters elements) :
    elements.Pairwise fun earlier later => earlier.optional → later.optional := by
  induction made with
  | nil => exact .nil
  | cons here others ih =>
    refine .cons (fun later isMember isOptional => ?_) ih
    exact others.optional (here.optional.1 isOptional).2 later isMember

section

variable {ty : Ty} (makes : ∀ context, Makes (mapType ctx context p.type) ty)

include makes

theorem IsElementFor.leftOut (isOptional : p.optional) (behind : ∀ later ∈ rest, later.optional) :
    IsElementFor ctx p rest ⟨p.name, ty, true⟩ := by
  refine ⟨rfl, iff_of_true rfl ⟨isOptional, behind⟩, ty, makes, fun _ => rfl, ?_⟩
  rintro ⟨_, later, isMember, required⟩
  exact absurd (behind later isMember) required

theorem IsElementFor.widened (isOptional : p.optional)
    (notBehind : ¬ ∀ later ∈ rest, later.optional) :
    IsElementFor ctx p rest ⟨p.name, ty.orUndefined, false⟩ := by
  refine ⟨rfl, iff_of_false Bool.false_ne_true fun all => notBehind all.2, ty, makes, ?_,
    fun _ => ty.orUndefined_eq⟩
  rintro (leftOut | required)
  · cases leftOut
  · exact absurd isOptional required

theorem IsElementFor.required (isRequired : ¬ p.optional) :
    IsElementFor ctx p rest ⟨p.name, ty, false⟩ :=
  ⟨rfl, iff_of_false Bool.false_ne_true fun all => isRequired all.1, ty, makes, fun _ => rfl,
    fun isWidened => absurd isWidened.1 isRequired⟩

end

end Elements

/-! ## The two ways

Both search for the last required parameter, and compare the index of each one with the position that
they have found. -/

/-- An index is behind the last required parameter exactly when all parameters from there on are
optional. -/
theorem trailing_iff (front rest : List Parameter) :
    (lastPosition? (fun p => !p.optional) (front ++ rest)).all (· < front.length) ↔
      ∀ p ∈ rest, p.optional := by
  simpa using lastPosition?_lt_iff (fun p : Parameter => !p.optional) front rest

def paramOf (element : TupleElement) : Param :=
  ⟨element.name, element.ty, element.optional, false⟩

section Ways

variable {ctx : Context} {context : String} {p : Parameter} {rest : List Parameter} {ty : Ty}
  {last : Option Nat} {index : Nat}

/-- The parameter of a method is the element, if the comparison with the last position asks for the
same. -/
theorem positionalParam_isElementFor (makes : ∀ context, Makes (mapType ctx context p.type) ty)
    (trailing : last.all (· < index) ↔ ∀ q ∈ p :: rest, q.optional) :
    ∃ element, IsElementFor ctx p rest element ∧
      positionalParam last index p ty = paramOf element := by
  rw [List.forall_mem_cons] at trailing
  cases isOptional : p.optional with
  | false =>
    refine ⟨_, .required makes (by simp [isOptional]), ?_⟩
    rw [positionalParam, isOptional]
    rfl
  | true =>
    cases isTrailing : last.all (· < index) with
    | false =>
      rw [isTrailing] at trailing
      have notBehind : ¬ ∀ later ∈ rest, later.optional := fun behind =>
        absurd (trailing.2 ⟨isOptional, behind⟩) Bool.false_ne_true
      refine ⟨_, .widened makes isOptional notBehind, ?_⟩
      rw [positionalParam, isOptional, isTrailing]
      rfl
    | true =>
      refine ⟨_, .leftOut makes isOptional (trailing.1 isTrailing).2, ?_⟩
      rw [positionalParam, isOptional, isTrailing]
      rfl

/-- The element of a tuple is the same one, under the same condition. -/
theorem positionalElement_isElementFor (makes : ∀ context, Makes (mapType ctx context p.type) ty)
    (trailing : last.all (· < index) ↔ ∀ q ∈ p :: rest, q.optional) :
    IsElementFor ctx p rest (positionalElement last index p ty) := by
  rw [List.forall_mem_cons] at trailing
  rw [positionalElement]
  split
  · next widens =>
    rw [Bool.and_eq_true, Bool.not_eq_true'] at widens
    obtain ⟨isOptional, notTrailing⟩ := widens
    refine .widened makes isOptional fun behind => ?_
    rw [trailing.2 ⟨isOptional, behind⟩] at notTrailing
    cases notTrailing
  · next keeps =>
    cases isOptional : p.optional with
    | false => exact .required makes (by simp [isOptional])
    | true =>
      have isTrailing : last.all (· < index) := by simpa [isOptional] using keeps
      exact .leftOut makes isOptional (trailing.1 isTrailing).2

variable {s s' : Session}

/-- The invariant of both loops: in front of the parameters that are left stand as many others as the
index says, and the position is the last one of a required parameter among all of them. -/
theorem positionalParamsFrom_made (front : List Parameter) {sorted : List Parameter}
    {params : List Param}
    (runs : Runs (positionalParamsFrom ctx context
      (lastPosition? (fun p => !p.optional) (front ++ sorted)) front.length sorted) s params s') :
    ∃ elements, AreElementsFor ctx sorted elements ∧ params = elements.map paramOf := by
  induction sorted generalizing front s s' params with
  | nil =>
    rw [positionalParamsFrom] at runs
    obtain ⟨rfl, _⟩ := runs_pure.1 runs
    exact ⟨[], .nil, rfl⟩
  | cons p rest ih =>
    rw [positionalParamsFrom] at runs
    obtain ⟨ty, t, mapped, runs⟩ := runs_bind.1 runs
    obtain ⟨params, t', others, runs⟩ := runs_bind.1 runs
    obtain ⟨rfl, _⟩ := runs_pure.1 runs
    have length : (front ++ [p]).length = front.length + 1 := List.length_append
    rw [List.append_cons, ← length] at others
    obtain ⟨elements, made, rfl⟩ := ih _ others
    obtain ⟨element, here, same⟩ := positionalParam_isElementFor
      (fun other => (mapType_alike ctx _ other p.type).makes mapped) (trailing_iff front (p :: rest))
    exact ⟨_, .cons here made, by rw [same, List.map_cons]⟩

/-- The property is documented, and the element is the one for the parameter. -/
theorem fieldAndElement_made {pair : Member × TupleElement}
    (trailing : last.all (· < index) ↔ ∀ q ∈ p :: rest, q.optional)
    (runs : Runs (fieldAndElement ctx context last index p) s pair s') :
    IsPropertyOf ctx context p pair.1 ∧ IsElementFor ctx p rest pair.2 := by
  obtain ⟨ty, t, mapped, runs⟩ := runs_bind.1 runs
  obtain ⟨doc, t', described, runs⟩ := runs_bind.1 runs
  obtain ⟨rfl, _⟩ := runs_pure.1 runs
  refine ⟨.intro ((mapType_free ctx _ p.type).makes mapped)
    ((describe_free ctx _ p.description).makes described), ?_⟩
  exact positionalElement_isElementFor
    (fun other => (mapType_alike ctx _ other p.type).makes mapped) trailing

/-- The loop over the elements; `front` are the parameters that it has gone through. -/
theorem fieldsAndElements_made (front : List Parameter) {sorted : List Parameter}
    {pairs : List (Member × TupleElement)}
    (runs : Runs (fieldsAndElements ctx context
      (lastPosition? (fun p => !p.optional) (front ++ sorted)) front.length sorted) s pairs s') :
    List.Forall₂ (IsPropertyOf ctx context) sorted (pairs.map (·.1)) ∧
      AreElementsFor ctx sorted (pairs.map (·.2)) := by
  induction sorted generalizing front s s' pairs with
  | nil =>
    rw [fieldsAndElements] at runs
    obtain ⟨rfl, _⟩ := runs_pure.1 runs
    exact ⟨.nil, .nil⟩
  | cons p rest ih =>
    rw [fieldsAndElements] at runs
    obtain ⟨first, t, here, runs⟩ := runs_bind.1 runs
    obtain ⟨pairs, t', others, runs⟩ := runs_bind.1 runs
    obtain ⟨rfl, _⟩ := runs_pure.1 runs
    have length : (front ++ [p]).length = front.length + 1 := List.length_append
    rw [List.append_cons, ← length] at others
    obtain ⟨field, element⟩ := fieldAndElement_made (trailing_iff front (p :: rest)) here
    obtain ⟨fields, elements⟩ := ih _ others
    exact ⟨.cons field fields, .cons element elements⟩

end Ways

/-- Where both are made of the same parameters, the parameters of a method by position are the
    elements of the tuple: only those at the end can be left out. The fields that can be left out are
    those that the schema says. -/
theorem positional_agree {ctx : Context} {parameters : List Parameter} {context name : String}
    {params : List Param} {type : Ty} {s s' t t' : Session}
    (byMethod : Runs (positionalParams ctx context parameters) s params s')
    (byConcept : Runs (tableOrArrayType ctx name parameters) t type t') :
    ∃ sorted fields elements, SortedFrom parameters sorted ∧
      type = .union [.literal fields, .tuple elements] ∧ params = elements.map paramOf ∧
      AreElementsFor ctx sorted elements ∧
      (elements.Pairwise fun earlier later => earlier.optional → later.optional) ∧
      List.Forall₂ (IsPropertyOf ctx name) sorted fields := by
  obtain ⟨elements, made, rfl⟩ := positionalParamsFrom_made [] byMethod
  obtain ⟨pairs, r, runs, byConcept⟩ := runs_bind.1 byConcept
  obtain ⟨rfl, _⟩ := runs_pure.1 byConcept
  obtain ⟨fields, made'⟩ := fieldsAndElements_made [] runs
  -- Both are elements for the parameters in order, of which there is only one list.
  obtain rfl := made.unique made'
  exact ⟨_, _, _, Schema.inOrder_sortedFrom parameters, rfl, rfl, made', made'.pairwise, fields⟩

end Synth

/-- Parameters that are not in order. One that is optional comes before a required one, and its type
    is a union. -/
def routeParameters : List Parameter :=
  [⟨"speed", 2, "", .named "float", true⟩,
    ⟨"source", 0, "", .variant [.named "LuaPost", .named "string"], true⟩,
    ⟨"target", 1, "", .named "LuaPost", false⟩]

def routeFields : List Member :=
  [.property "source" (.union [.named "LuaPost", .named "string"]) true false none,
    .property "target" (.named "LuaPost") false false none,
    .property "speed" (.named "float") true false none]

def routeElements : List TupleElement :=
  [⟨"source", .union [.named "LuaPost", .named "string", .keyword .undefined], false⟩,
    ⟨"target", .named "LuaPost", false⟩, ⟨"speed", .named "float", true⟩]

def routeContext : Context :=
  .of { application := "factorio", stage := "runtime", apiVersion := 3 } .empty {}

theorem routeParameters_agree :
    Synth.Runs (Synth.positionalParams routeContext "LuaPost.send" routeParameters) {}
        (routeElements.map Synth.paramOf) {} ∧
      Synth.Runs (Synth.tableOrArrayType routeContext "Route" routeParameters) {}
        (.union [.literal routeFields, .tuple routeElements]) {} ∧
      ∃ sorted, SortedFrom routeParameters sorted ∧
        Synth.AreElementsFor routeContext sorted routeElements ∧
        (routeElements.Pairwise fun earlier later => earlier.optional → later.optional) ∧
        List.Forall₂ (Synth.IsPropertyOf routeContext "Route") sorted routeFields := by
  have byMethod : Synth.Runs
      (Synth.positionalParams routeContext "LuaPost.send" routeParameters) {}
      (routeElements.map Synth.paramOf) {} := rfl
  have byConcept : Synth.Runs (Synth.tableOrArrayType routeContext "Route" routeParameters) {}
      (.union [.literal routeFields, .tuple routeElements]) {} := rfl
  obtain ⟨sorted, fields, elements, isSorted, same, _, made, legal, properties⟩ :=
    Synth.positional_agree byMethod byConcept
  cases same
  exact ⟨byMethod, byConcept, sorted, isSorted, made, legal, properties⟩

end Typings

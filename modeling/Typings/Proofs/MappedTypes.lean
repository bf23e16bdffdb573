import Typings.Proofs.NormalType
import Typings.Proofs.SchemaStep

/-! # What a type keeps when it is mapped

A mapped type has the names of the schema type, in the order in which they are read. A dictionary
whose keys cannot index a record is the only type that is replaced, and each of them is noted.

* `TypePlace.all`: a schema type and the types inside it, each with its context.
* `Ty.nested`: a type and the types inside it.
* `TypePlace.fallbacks`: what is to be noted on the dictionaries in a schema type.
* `Synth.mapType_fallbacks`: what is noted when a type is mapped.
* `Synth.mapType_keeps`: when a type can be mapped, and what the mapped type shows of it.
-/

namespace Typings

open Schema (Parameter TypeExpr)
open Text (Documentation Piece)

/-! ## Types inside schema types -/

/-- The parameters that an inline table has in every variant; any other type has none. -/
def Schema.TypeExpr.parameters : TypeExpr → List Parameter
  | .table shape => shape.parameters
  | _ => []

/-- A schema type, with the context that it is mapped in. -/
structure TypePlace where
  context : String
  type : TypeExpr

namespace TypePlace

/-- The types of which a schema type is made, from the left. Those of the parameters of a table are
    in the order of the parameters, which lead to contexts of their own. -/
def inside : TypePlace → List TypePlace
  | ⟨_, .named _⟩ => []
  | ⟨context, .array value⟩ => [⟨context, value⟩]
  | ⟨context, .dictionary key value⟩ => [⟨context, key⟩, ⟨context, value⟩]
  | ⟨context, .variant options⟩ => options.map (⟨context, ·⟩)
  | ⟨context, .function parameters⟩ => parameters.map (⟨context, ·⟩)
  | ⟨context, .lazy value⟩ => [⟨context, value⟩]
  | ⟨context, .customTable key value⟩ => [⟨context, key⟩, ⟨context, value⟩]
  | ⟨context, .table shape⟩ =>
    (Schema.inOrder shape.parameters).map fun p => ⟨context ++ "." ++ p.name, p.type⟩

/-- The types inside are smaller, so that recursion on them ends. -/
theorem sizeOf_type_lt {inner place : TypePlace} (isInside : inner ∈ place.inside) :
    sizeOf inner.type < sizeOf place.type := by
  obtain ⟨context, type⟩ := place
  cases type with
  | named name => cases isInside
  | array value | lazy value =>
    obtain rfl := List.mem_singleton.1 isInside
    simp only [TypeExpr.array.sizeOf_spec, TypeExpr.lazy.sizeOf_spec]
    omega
  | dictionary key value | customTable key value =>
    simp only [inside, List.mem_cons, List.not_mem_nil, or_false] at isInside
    rcases isInside with rfl | rfl
    all_goals
      simp only [TypeExpr.dictionary.sizeOf_spec, TypeExpr.customTable.sizeOf_spec]
      omega
  | variant types | function types =>
    obtain ⟨type, isMember, rfl⟩ := List.mem_map.1 isInside
    have := List.sizeOf_lt_of_mem isMember
    simp only [TypeExpr.variant.sizeOf_spec, TypeExpr.function.sizeOf_spec]
    omega
  | table shape =>
    obtain ⟨p, isMember, rfl⟩ := List.mem_map.1 isInside
    have := List.sizeOf_lt_of_mem (Schema.mem_inOrder.1 isMember)
    obtain ⟨name, order, description, type, optional⟩ := p
    obtain ⟨parameters, groups, groupDescription⟩ := shape
    simp only [Parameter.mk.sizeOf_spec, Schema.TableShape.mk.sizeOf_spec,
      TypeExpr.table.sizeOf_spec] at this ⊢
    omega

/-- The schema type and all types inside it as they are read; a type stands behind those of which
    it is made. -/
def all (place : TypePlace) : List TypePlace :=
  place.inside.attach.flatMap (fun inner => inner.1.all) ++ [place]
termination_by sizeOf place.type
decreasing_by exact sizeOf_type_lt inner.2

theorem all_eq (place : TypePlace) : place.all = place.inside.flatMap all ++ [place] := by
  rw [all]
  simp

theorem flatMap_all {α : Type} (f : TypePlace → List α) (place : TypePlace) :
    place.all.flatMap f = place.inside.flatMap (fun inner => inner.all.flatMap f) ++ f place := by
  rw [all_eq, List.flatMap_append, List.flatMap_assoc, List.flatMap_singleton]

theorem filterMap_all {α : Type} (f : TypePlace → Option α) (place : TypePlace) :
    place.all.filterMap f =
      place.inside.flatMap (fun inner => inner.all.filterMap f) ++ (f place).toList := by
  simp only [List.filterMap_eq_flatMap_toList]
  exact flatMap_all _ place

end TypePlace

/-! ## Types inside types -/

theorem Param.sizeOf_ty_lt (p : Param) : sizeOf p.ty < sizeOf p := by
  obtain ⟨name, ty, optional, rest⟩ := p
  simp only [mk.sizeOf_spec]
  omega

theorem sizeOf_signature_lt {inner : Ty} {params : List Param} {ret : Option Ty}
    (isInside : inner ∈ params.map (·.ty) ++ ret.toList) :
    sizeOf inner < sizeOf params + sizeOf ret := by
  rcases List.mem_append.1 isInside with isInside | isInside
  · obtain ⟨p, isMember, rfl⟩ := List.mem_map.1 isInside
    have := p.sizeOf_ty_lt
    have := List.sizeOf_lt_of_mem isMember
    omega
  · obtain rfl := Option.mem_toList.1 isInside
    simp only [Option.some.sizeOf_spec]
    omega

theorem Member.sizeOf_type_lt {inner : Ty} {m : Member} (isInside : inner ∈ m.types) :
    sizeOf inner < sizeOf m := by
  cases m with
  | property name ty optional readonly doc =>
    obtain rfl := List.mem_singleton.1 isInside
    simp only [property.sizeOf_spec]
    omega
  | setter name param doc =>
    obtain rfl := List.mem_singleton.1 isInside
    have := param.sizeOf_ty_lt
    simp only [setter.sizeOf_spec]
    omega
  | method name params ret doc | call params ret doc =>
    have := sizeOf_signature_lt isInside
    simp only [method.sizeOf_spec, call.sizeOf_spec]
    omega
  | index keyName key value readonly =>
    simp only [types, List.mem_cons, List.not_mem_nil, or_false] at isInside
    rcases isInside with rfl | rfl
    all_goals
      simp only [index.sizeOf_spec]
      omega

theorem Ty.sizeOf_inside_lt {inner ty : Ty} (isInside : inner ∈ ty.inside) :
    sizeOf inner < sizeOf ty := by
  cases ty with
  | keyword | text | number => cases isInside
  | reference name types | union types | intersection types =>
    have : sizeOf inner < sizeOf types := List.sizeOf_lt_of_mem isInside
    simp only [reference.sizeOf_spec, union.sizeOf_spec, intersection.sizeOf_spec]
    omega
  | array item =>
    obtain rfl := List.mem_singleton.1 isInside
    simp only [array.sizeOf_spec]
    omega
  | tuple elements =>
    obtain ⟨⟨name, ty, optional⟩, isMember, rfl⟩ := List.mem_map.1 isInside
    have := List.sizeOf_lt_of_mem isMember
    simp only [TupleElement.mk.sizeOf_spec, tuple.sizeOf_spec] at this ⊢
    omega
  | function params ret =>
    have := sizeOf_signature_lt isInside
    simp only [function.sizeOf_spec]
    omega
  | literal members =>
    obtain ⟨m, isMember, isInside⟩ := List.mem_flatMap.1 isInside
    have := Member.sizeOf_type_lt isInside
    have := List.sizeOf_lt_of_mem isMember
    simp only [literal.sizeOf_spec]
    omega

/-- The type and all types inside it, from the left; a type stands in front of those of which it is
    made. -/
def Ty.nested (ty : Ty) : List Ty :=
  ty :: ty.inside.attach.flatMap fun inner => inner.1.nested
termination_by sizeOf ty
decreasing_by exact Ty.sizeOf_inside_lt inner.2

theorem Ty.nested_eq (ty : Ty) : ty.nested = ty :: ty.inside.flatMap nested := by
  rw [nested]
  simp

/-! ## Names and dictionaries -/

/-- The name, if the type is a reference without type arguments. -/
def Ty.plainName? : Ty → Option String
  | .reference name [] => some name
  | _ => none

/-- Whether the type is the one for a dictionary whose keys cannot index a record. -/
def Ty.isLuaTable : Ty → Bool
  | .reference "LuaTable" [_, _] => true
  | _ => false

/-- The references in the type that have no type arguments, from the left. -/
def Ty.plainNames (ty : Ty) : List String :=
  ty.nested.filterMap plainName?

def Ty.luaTables (ty : Ty) : Nat :=
  ty.nested.countP isLuaTable

theorem Ty.plainNames_eq (ty : Ty) :
    ty.plainNames = ty.plainName?.toList ++ ty.inside.flatMap plainNames := by
  have pointwise : plainNames = fun ty => ty.nested.flatMap (·.plainName?.toList) :=
    funext fun ty => List.filterMap_eq_flatMap_toList _ ty.nested
  simp only [pointwise]
  rw [nested_eq ty, List.flatMap_cons, List.flatMap_assoc]

namespace Synth

/-- The keys of such a type can index a record: the type is a text, a number, a builtin type that is
    one, or a path in the tree of constants. -/
def CanIndex (ctx : Context) (key : TypeExpr) : Prop :=
  ∃ name, key.name? = some name ∧
    (name = "string" ∨ name = "number" ∨ name ∈ ctx.config.numericBuiltins ∨
      name ∈ ctx.definePaths)

theorem isIndexable_iff {ctx : Context} {key : TypeExpr} :
    isIndexable ctx key ↔ CanIndex ctx key := by
  rw [isIndexable, CanIndex]
  cases key.name? with
  | none => simp
  | some name => simp [Config.isNumeric, Context.isDefine, or_assoc]

instance (ctx : Context) : DecidablePred (CanIndex ctx) :=
  fun _ => decidable_of_iff _ isIndexable_iff

end Synth

namespace TypePlace

/-- The name, if the schema type is one. -/
def name? (place : TypePlace) : Option String :=
  place.type.name?

/-- What is noted on a dictionary whose keys cannot index a record. -/
def fallback? (ctx : Context) : TypePlace → Option Advisory
  | ⟨context, .dictionary key _⟩ =>
    if Synth.CanIndex ctx key then none else some (.nonIndexableKey context key.text)
  | _ => none

/-- The names in the schema type, as they are read. -/
def names (place : TypePlace) : List String :=
  place.all.filterMap name?

/-- What is noted on the dictionaries in the schema type, as they are read. -/
def fallbacks (ctx : Context) (place : TypePlace) : List Advisory :=
  place.all.filterMap (fallback? ctx)

theorem names_eq (place : TypePlace) :
    place.names = place.inside.flatMap names ++ place.name?.toList :=
  filterMap_all name? place

theorem fallbacks_eq (ctx : Context) (place : TypePlace) :
    place.fallbacks ctx = place.inside.flatMap (fallbacks ctx) ++ (place.fallback? ctx).toList :=
  filterMap_all (fallback? ctx) place

/-- The descriptions in the schema type: those of the parameters of inline tables. -/
def descriptions (place : TypePlace) : List String :=
  place.all.flatMap fun inner => inner.type.parameters.map (·.description)

theorem descriptions_eq (place : TypePlace) :
    place.descriptions =
      place.inside.flatMap descriptions ++ place.type.parameters.map (·.description) :=
  flatMap_all _ place

/-- The descriptions among the places are the remarks of the type. -/
theorem mem_descriptions {text context : String} {type : TypeExpr} :
    text ∈ descriptions ⟨context, type⟩ ↔ text ∈ type.remarks := by
  induction type using TypeExpr.induct generalizing context with
  | named name =>
    rw [descriptions_eq]
    simp [inside, TypeExpr.parameters, TypeExpr.remarks]
  | array value ih | lazy value ih =>
    rw [descriptions_eq]
    simp [inside, TypeExpr.parameters, TypeExpr.remarks, ih]
  | dictionary key value ihKey ihValue | customTable key value ihKey ihValue =>
    rw [descriptions_eq]
    simp [inside, TypeExpr.parameters, TypeExpr.remarks, ihKey, ihValue]
  | variant types ih | function types ih =>
    rw [descriptions_eq, TypeExpr.remarks, TypeExpr.listRemarks_eq_flatMap]
    simp only [inside, TypeExpr.parameters, List.flatMap_map, List.map_nil, List.append_nil,
      List.mem_flatMap]
    exact exists_congr fun t => and_congr_right fun isMember => ih t isMember
  | table parameters groups groupDescription ih =>
    rw [descriptions_eq, TypeExpr.remarks, Schema.TableShape.remarks,
      Parameter.listRemarks_eq_flatMap]
    simp only [inside, TypeExpr.parameters, List.flatMap_map, List.mem_append, List.mem_flatMap,
      List.mem_map, Schema.mem_inOrder, Parameter.remarks_eq, List.mem_singleton, and_or_left,
      exists_or]
    refine or_congr (exists_congr fun p => and_congr_right fun isMember => ih p isMember) ?_
    exact exists_congr fun p => and_congr_right fun _ => eq_comm

end TypePlace

def Advisory.isNonIndexableKey : Advisory → Bool
  | .nonIndexableKey _ _ => true
  | .unresolvedLink _ _ => false
  | .missingBuiltinDefinition _ => false
  | .missingConstantDefinition _ => false
  | .missingConceptDefinition _ => false
  | .missingIndexShape _ => false

namespace Synth

variable (ctx : Context)

/-! ## What is noted -/

section Documentation

/-! Documentation looks up links and nothing else. -/

variable {kind : Advisory → Bool}
  (other : ∀ context reference, ¬ kind (.unresolvedLink context reference))

include other

theorem unresolved_notesOf (context reference : String) :
    NotesOf kind (unresolved ctx context reference) [] := by
  have run : NotesOf kind (unresolved ctx context reference) _ :=
    (NotesOf.note (.unresolvedLink context reference)).andThen fun _ => .pure _
  rwa [List.filter_cons_of_neg (other context reference)] at run

theorem resolve_notesOf (context reference : String) :
    NotesOf kind (resolve ctx context reference) [] := by
  rw [resolve]
  cases ctx.lookup? reference with
  | some url => exact .pure url
  | none => exact unresolved_notesOf ctx other context reference

theorem resolveTarget_notesOf (context : String) (target : List Char) :
    NotesOf kind (resolveTarget ctx context target) [] := by
  rw [resolveTarget]
  cases Target.of target with
  | address => exact .pure _
  | reference => exact resolve_notesOf ctx other context _
  | operator container fragment =>
    dsimp only
    cases ctx.entityPage? container with
    | none => exact unresolved_notesOf ctx other context _
    | some url => exact .pure _
  | unknownOperator => exact .throw _

theorem renderLinks_notesOf (context text : String) :
    NotesOf kind (renderLinks ctx context text) [] := by
  refine (NotesOf.each_nothing fun piece _ => ?_).andThen fun _ => .pure _
  cases piece with
  | char c => exact .pure _
  | link link => exact (resolveTarget_notesOf ctx other context _).andThen fun _ => .pure _

theorem documentation_notesOf (context : String) (source : Documentation) :
    NotesOf kind (documentation ctx context source) [] := by
  refine (renderLinks_notesOf ctx other context _).bind fun _ =>
    (NotesOf.each_nothing fun note _ => renderLinks_notesOf ctx other context note).bind
      fun _ => ?_
  cases source.see with
  | some reference =>
    exact ((resolve_notesOf ctx other context reference).map some).bind fun _ => .pure _
  | none => exact (NotesOf.pure none).bind fun _ => .pure _

theorem describe_notesOf (context description : String) :
    NotesOf kind (describe ctx context description) [] :=
  documentation_notesOf ctx other context { description }

end Documentation

theorem dictionaryType_notesOf (context : String) (key value : TypeExpr) (keyType valueType : Ty) :
    NotesOf Advisory.isNonIndexableKey (dictionaryType ctx context key keyType valueType)
      (TypePlace.fallback? ctx ⟨context, .dictionary key value⟩).toList := by
  rw [dictionaryType, TypePlace.fallback?]
  by_cases can : CanIndex ctx key
  · rw [if_pos (isIndexable_iff.2 can), if_pos can]
    exact .pure _
  · rw [if_neg (mt isIndexable_iff.1 can), if_neg can]
    exact (NotesOf.note (.nonIndexableKey context key.text)).andThen fun _ => .pure _

/-- Numbering the arguments does not add any notes. -/
theorem mapArguments_notesOf (context : String) (number : Nat) {types : List TypeExpr}
    {noted : TypeExpr → List Advisory}
    {kind : Advisory → Bool} (notes : ∀ t ∈ types, NotesOf kind (mapType ctx context t) (noted t)) :
    NotesOf kind (mapArguments ctx context number types) (types.flatMap noted) := by
  induction types generalizing number with
  | nil =>
    rw [mapArguments]
    exact .pure _
  | cons type types ih =>
    rw [mapArguments, List.flatMap_cons]
    have first := notes type List.mem_cons_self
    have others := ih (number + 1) fun t isMember => notes t (List.mem_cons_of_mem type isMember)
    exact first.bind fun _ => others.andThen fun _ => .pure _

theorem parameterProperty_notesOf (context : String) (parameter : Parameter)
    {noted : List Advisory}
    (notes : NotesOf Advisory.isNonIndexableKey
      (mapType ctx (context ++ "." ++ parameter.name) parameter.type) noted) :
    NotesOf Advisory.isNonIndexableKey (parameterProperty ctx context parameter) noted := by
  obtain ⟨name, order, description, type, optional⟩ := parameter
  rw [parameterProperty]
  exact notes.andThen fun _ =>
    (describe_notesOf ctx (fun _ _ => Bool.false_ne_true) _ description).andThen fun _ => .pure _

/-- What is noted when a type is mapped is on its dictionaries, once for each of those whose keys
    cannot index a record. -/
theorem mapType_fallbacks (context : String) (type : TypeExpr) :
    NotesOf Advisory.isNonIndexableKey (mapType ctx context type)
      (TypePlace.fallbacks ctx ⟨context, type⟩) := by
  -- The context names the way to the type, so it changes from a type to those inside it.
  induction type using TypeExpr.induct generalizing context with
  | named name =>
    rw [mapType, TypePlace.fallbacks_eq]
    exact .pure _
  | array value ih | lazy value ih =>
    rw [mapType, TypePlace.fallbacks_eq]
    simpa [TypePlace.inside, TypePlace.fallback?] using (ih context).andThen fun _ => .pure _
  | dictionary key value ihKey ihValue =>
    rw [mapType, TypePlace.fallbacks_eq]
    have run := (ihKey context).bind fun keyType => (ihValue context).bind fun valueType =>
      dictionaryType_notesOf ctx context key value keyType valueType
    simpa [TypePlace.inside] using run
  | variant options ih =>
    rw [mapType, mapTypes_eq_each, TypePlace.fallbacks_eq]
    have run := (NotesOf.each fun t isMember => ih t isMember context).andThen fun tys =>
      .pure (Ty.unionOf tys)
    simpa [TypePlace.inside, TypePlace.fallback?, List.flatMap_map] using run
  | function parameters ih =>
    rw [mapType, TypePlace.fallbacks_eq]
    have run := (mapArguments_notesOf ctx context 1 fun t isMember => ih t isMember context).andThen
      fun params => .pure (Ty.function params none)
    simpa [TypePlace.inside, TypePlace.fallback?, List.flatMap_map] using run
  | customTable key value ihKey ihValue =>
    rw [mapType, TypePlace.fallbacks_eq]
    have run := (ihKey context).bind fun keyType => (ihValue context).andThen fun valueType =>
      .pure (Ty.reference "LuaCustomTable" [keyType, valueType])
    simpa [TypePlace.inside, TypePlace.fallback?] using run
  | table parameters groups groupDescription ih =>
    rw [mapType, mapShape, parameterSteps_eq_map, inOrder_placed, TypePlace.fallbacks_eq]
    have run := (NotesOf.each fun p isMember => parameterProperty_notesOf ctx context p
      (ih p (Schema.mem_inOrder.1 isMember) _)).andThen fun members => .pure (Ty.literal members)
    simpa [TypePlace.inside, TypePlace.fallback?, List.flatMap_map] using run

/-! ## What the mapped type shows -/

/-- The types have the names in the schema types in the same order, and as many types for
    dictionaries whose keys cannot index a record as there are such dictionaries. -/
structure Shows (tys : List Ty) (places : List TypePlace) : Prop where
  names : tys.flatMap Ty.plainNames = places.flatMap TypePlace.names
  luaTables : (tys.flatMap Ty.nested).countP Ty.isLuaTable =
    (places.flatMap (TypePlace.fallbacks ctx)).length

namespace Shows

variable {ctx} {α β : Type} {tys tys' : List Ty} {places places' : List TypePlace}

theorem nil : Shows ctx [] [] :=
  ⟨rfl, rfl⟩

theorem append (shows : Shows ctx tys places) (shows' : Shows ctx tys' places') :
    Shows ctx (tys ++ tys') (places ++ places') where
  names := by rw [List.flatMap_append, List.flatMap_append, shows.names, shows'.names]
  luaTables := by
    rw [List.flatMap_append, List.countP_append, List.flatMap_append, List.length_append,
      shows.luaTables, shows'.luaTables]

theorem of_forall₂ {xs : List α} {ys : List β} {R : α → β → Prop} {types : β → List Ty}
    {place : α → TypePlace} (related : List.Forall₂ R xs ys)
    (shows : ∀ x ∈ xs, ∀ y, R x y → Shows ctx (types y) [place x]) :
    Shows ctx (ys.flatMap types) (xs.map place) := by
  induction related with
  | nil => exact nil
  | cons here _ ih =>
    have first := shows _ List.mem_cons_self _ here
    exact first.append (ih fun x isMember => shows x (List.mem_cons_of_mem _ isMember))

/-- A type may be made of types without being one of its own, as a union of one option is. -/
theorem collapse {place : TypePlace} (inside : Shows ctx tys place.inside)
    (unnamed : place.name? = none) (kept : place.fallback? ctx = none) : Shows ctx tys [place] where
  names := by simp [place.names_eq, unnamed, inside.names]
  luaTables := by simp [place.fallbacks_eq, kept, inside.luaTables]

theorem node {ty : Ty} {place : TypePlace} (inside : Shows ctx ty.inside place.inside)
    (plain : ty.plainName? = none) (unnamed : place.name? = none)
    (same : ty.isLuaTable = (place.fallback? ctx).isSome) : Shows ctx [ty] [place] where
  names := by simp [ty.plainNames_eq, place.names_eq, plain, unnamed, inside.names]
  luaTables := by
    rw [List.flatMap_singleton, ty.nested_eq, List.countP_cons, inside.luaTables, same,
      List.flatMap_singleton, place.fallbacks_eq, List.length_append]
    cases place.fallback? ctx <;> rfl

end Shows

theorem unionOf_shows {options : List Ty} {place : TypePlace} {ctx : Context}
    (inside : Shows ctx options place.inside) (unnamed : place.name? = none)
    (kept : place.fallback? ctx = none) : Shows ctx [Ty.unionOf options] [place] := by
  match options with
  | [option] => exact inside.collapse unnamed kept
  | [] => exact inside.node rfl unnamed (by rw [kept]; rfl)
  | option :: option' :: options => exact inside.node rfl unnamed (by rw [kept]; rfl)

variable {ctx} {s s' : Session}

/-- Whether a dictionary is noted and whether it becomes a type of its own is one question. -/
theorem runs_dictionaryType (value : TypeExpr) {context : String} {key : TypeExpr}
    {keyType valueType ty : Ty}
    (runs : Runs (dictionaryType ctx context key keyType valueType) s ty s') :
    ty.inside = [keyType, valueType] ∧ ty.plainName? = none ∧
      ty.isLuaTable =
        (TypePlace.fallback? ctx ⟨context, .dictionary key value⟩).isSome := by
  rw [dictionaryType] at runs
  rw [TypePlace.fallback?]
  by_cases can : CanIndex ctx key
  · rw [if_pos (isIndexable_iff.2 can)] at runs
    obtain ⟨rfl, _⟩ := runs_pure.1 runs
    rw [if_pos can]
    exact ⟨rfl, rfl, rfl⟩
  · rw [if_neg (mt isIndexable_iff.1 can)] at runs
    obtain ⟨_, _, _, last⟩ := runs_bind.1 runs
    obtain ⟨rfl, _⟩ := runs_pure.1 last
    rw [if_neg can]
    exact ⟨rfl, rfl, rfl⟩

/-- The arguments are mapped one by one. -/
theorem Runs.mapArguments {context : String} {number : Nat} {types : List TypeExpr}
    {params : List Param} (runs : Runs (mapArguments ctx context number types) s params s') :
    List.Forall₂ (fun t p => ∃ r r', Runs (mapType ctx context t) r p.ty r') types params := by
  induction types generalizing number params s s' with
  | nil =>
    rw [Synth.mapArguments] at runs
    obtain ⟨rfl, _⟩ := runs_pure.1 runs
    exact .nil
  | cons type types ih =>
    rw [Synth.mapArguments] at runs
    obtain ⟨ty, r, first, rest⟩ := runs_bind.1 runs
    obtain ⟨params, _, others, last⟩ := runs_bind.1 rest
    obtain ⟨rfl, _⟩ := runs_pure.1 last
    exact .cons ⟨s, r, first⟩ (ih others)

/-- A mapped type shows the schema type: by induction on the schema type, a type shows what those of
    which it is made show. -/
theorem mapType_shows {context : String} {type : TypeExpr} {ty : Ty}
    (runs : Runs (mapType ctx context type) s ty s') : Shows ctx [ty] [⟨context, type⟩] := by
  induction type using TypeExpr.induct generalizing context ty s s' with
  | named name =>
    rw [mapType] at runs
    obtain ⟨rfl, _⟩ := runs_pure.1 runs
    refine ⟨?_, ?_⟩
    · simp [Ty.plainNames_eq, TypePlace.names_eq, Ty.named, Ty.plainName?, Ty.inside,
        TypePlace.name?, TypeExpr.name?, TypePlace.inside]
    · simp [Ty.nested_eq, TypePlace.fallbacks_eq, Ty.named, Ty.isLuaTable, Ty.inside,
        TypePlace.fallback?, TypePlace.inside]
  | array value ih | lazy value ih =>
    rw [mapType] at runs
    obtain ⟨ty, _, mapped, last⟩ := runs_bind.1 runs
    obtain ⟨rfl, _⟩ := runs_pure.1 last
    exact .node (ih mapped) rfl rfl rfl
  | dictionary key value ihKey ihValue =>
    rw [mapType] at runs
    obtain ⟨keyType, _, mappedKey, rest⟩ := runs_bind.1 runs
    obtain ⟨valueType, _, mappedValue, last⟩ := runs_bind.1 rest
    -- The two types that a dictionary can have differ in their names only.
    obtain ⟨inside, plain, same⟩ := runs_dictionaryType value last
    refine .node ?_ plain rfl same
    rw [inside]
    exact (ihKey mappedKey).append (ihValue mappedValue)
  | variant options ih =>
    rw [mapType, mapTypes_eq_each] at runs
    obtain ⟨tys, _, mapped, last⟩ := runs_bind.1 runs
    obtain ⟨rfl, _⟩ := runs_pure.1 last
    have shows : Shows ctx (tys.flatMap fun ty => [ty]) (options.map (⟨context, ·⟩)) := by
      refine .of_forall₂ mapped.forall₂ fun t isMember _ made => ?_
      obtain ⟨_, _, mapped⟩ := made
      exact ih t isMember mapped
    rw [List.flatMap_singleton'] at shows
    -- The union of one option is the option, which shows the same.
    exact unionOf_shows shows rfl rfl
  | function parameters ih =>
    rw [mapType] at runs
    obtain ⟨params, _, mapped, last⟩ := runs_bind.1 runs
    obtain ⟨rfl, _⟩ := runs_pure.1 last
    have shows : Shows ctx (params.flatMap fun p => [p.ty]) (parameters.map (⟨context, ·⟩)) := by
      refine .of_forall₂ mapped.mapArguments fun t isMember _ made => ?_
      obtain ⟨_, _, mapped⟩ := made
      exact ih t isMember mapped
    rw [← List.map_eq_flatMap, ← List.append_nil (params.map _)] at shows
    exact .node shows rfl rfl rfl
  | customTable key value ihKey ihValue =>
    rw [mapType] at runs
    obtain ⟨keyType, _, mappedKey, rest⟩ := runs_bind.1 runs
    obtain ⟨valueType, _, mappedValue, last⟩ := runs_bind.1 rest
    obtain ⟨rfl, _⟩ := runs_pure.1 last
    exact .node ((ihKey mappedKey).append (ihValue mappedValue)) rfl rfl rfl
  | table parameters groups groupDescription ih =>
    rw [mapType, mapShape, parameterSteps_eq_map, inOrder_placed] at runs
    obtain ⟨members, _, mapped, last⟩ := runs_bind.1 runs
    obtain ⟨rfl, _⟩ := runs_pure.1 last
    refine .node (.of_forall₂ mapped.forall₂ fun p isMember m made => ?_) rfl rfl rfl
    obtain ⟨_, _, made⟩ := made
    obtain ⟨ty, _, _, mapped, _, rfl⟩ := runs_parameterProperty ctx made
    exact ih p (Schema.mem_inOrder.1 isMember) mapped

/-- A type can be mapped unless the description of a parameter in it has a link to an operator that
    does not exist. The mapped type has the names in the schema type, and a type of its own for each
    dictionary that is noted. -/
theorem mapType_keeps (context : String) (type : TypeExpr) (s : Session) :
    ((∃ e, Fails (mapType ctx context type) s e) ↔
        ∃ text ∈ TypePlace.descriptions ⟨context, type⟩, ∃ link ∈ Text.links text,
          linkTarget link = .unknownOperator) ∧
      ∀ ty s', Runs (mapType ctx context type) s ty s' →
        ty.plainNames = TypePlace.names ⟨context, type⟩ ∧
        ∃ added, s'.advisories = s.advisories ++ added ∧
          added.filter Advisory.isNonIndexableKey = TypePlace.fallbacks ctx ⟨context, type⟩ ∧
          ty.luaTables = (added.filter Advisory.isNonIndexableKey).length := by
  constructor
  · rw [(mapType_fromSchema ctx context type).succeeds.fails_iff s]
    simp [AllKnown, LinksKnown, TypePlace.mem_descriptions]
  · intro ty s' runs
    obtain ⟨names, luaTables⟩ := mapType_shows runs
    obtain ⟨added, appended, noted⟩ := mapType_fallbacks ctx context type s ty s' runs
    rw [List.flatMap_singleton, List.flatMap_singleton] at names luaTables
    exact ⟨names, added, appended, noted, by rw [noted, Ty.luaTables, luaTables]⟩

end Synth

/-- A dictionary whose keys are other than texts, with dictionaries inside; the parameters of its
    table are not in order. -/
def stockType : TypeExpr :=
  .dictionary (.variant [.named "LuaEntity"])
    (.table
      ⟨[.required "count" 1 (.dictionary (.named "string") (.named "uint")),
        .required "names" 0 (.dictionary (.named "LuaItem") (.array (.named "string")))],
        [], none⟩)

def stockContext : Context :=
  .of { application := "factorio", stage := "runtime", apiVersion := 3 } .empty {}

theorem stockType_kept :
    ∃ ty s', Synth.Runs (Synth.mapType stockContext "LuaStock.find" stockType) {} ty s' ∧
      ty.plainNames = ["LuaEntity", "LuaItem", "string", "string", "uint"] ∧
      s'.advisories.filter Advisory.isNonIndexableKey =
        [.nonIndexableKey "LuaStock.find.names" "LuaItem",
          .nonIndexableKey "LuaStock.find" "LuaEntity"] ∧
      ty.luaTables = 2 := by
  have isOk :
      (Synth.outcome (Synth.mapType stockContext "LuaStock.find" stockType) {}).1.isOk := by
    decide +kernel
  obtain ⟨ty, s', runs⟩ := Synth.exists_runs_of_isOk isOk
  obtain ⟨names, added, appended, noted, luaTables⟩ :=
    (Synth.mapType_keeps "LuaStock.find" stockType {}).2 ty s' runs
  have names' : TypePlace.names ⟨"LuaStock.find", stockType⟩ =
      ["LuaEntity", "LuaItem", "string", "string", "uint"] := by
    decide +kernel
  have fallbacks : TypePlace.fallbacks stockContext ⟨"LuaStock.find", stockType⟩ =
      [.nonIndexableKey "LuaStock.find.names" "LuaItem",
        .nonIndexableKey "LuaStock.find" "LuaEntity"] := by
    decide +kernel
  have same : s'.advisories = added := appended
  refine ⟨ty, s', runs, names.trans names', ?_, ?_⟩
  · rw [same, noted, fallbacks]
  · rw [luaTables, noted, fallbacks]
    rfl

end Typings

import Typings.Proofs.Reordering
import Typings.Proofs.Segments

/-! # Steps that agree

A step depends on its context through the settings, the pages that references lead to, the names in
the tree of constants, and the override of its entity. So in two contexts that agree on the first
three the steps below the entities are the same, also for things that differ in the order of their
lists.

* `Context.Agrees`: contexts with the same settings, pages and constants.
* `Synth.mapType_congr`: a type is mapped alike in both contexts.
* `Synth.mergeAttribute_congr`, `Synth.mergeParameters_congr`, `Synth.mergeMethod_congr`: so are the
  members, given the override that they are merged with.
-/

namespace Typings

open Schema
open Text (Documentation Piece)

/-- The contexts have the same settings, and a reference leads to the same page in both. -/
structure Context.Agrees (ctx ctx' : Context) : Prop where
  config : ctx.config = ctx'.config
  pages : ctx.entityPage? = ctx'.entityPage?
  defines : ctx.isDefine = ctx'.isDefine

/-- The tables differ in the order of their parameters and groups only. -/
inductive VariantTable.Reordered (table : VariantTable) : VariantTable → Prop
  | intro {parameters groups} (shared : Shuffled Parameter.Reordered table.parameters parameters)
      (grouped : Shuffled ParameterGroup.Reordered table.groups groups) :
      Reordered table { table with parameters, groups }

theorem VariantTable.Reordered.groups {table table' : VariantTable}
    (reordered : table.Reordered table') :
    Shuffled ParameterGroup.Reordered table.groups table'.groups := by
  cases reordered with
  | intro shared grouped => exact grouped

theorem VariantTable.Reordered.name_eq {table table' : VariantTable}
    (reordered : table.Reordered table') : table.name = table'.name := by
  cases reordered
  rfl

namespace Synth

variable {α β : Type} {ctx ctx' : Context}

theorem each_congr {R : α → α → Prop} {step step' : α → Synth β} {xs ys : List α}
    (related : List.Forall₂ R xs ys) (same : ∀ x ∈ xs, ∀ y, R x y → step x = step' y) :
    each step xs = each step' ys := by
  induction related with
  | nil => rfl
  | @cons x y xs ys here _ ih =>
    rw [each_cons, each_cons, same x List.mem_cons_self y here,
      ih fun x isMember => same x (List.mem_cons_of_mem _ isMember)]

theorem each_inOrder_congr [Ordered α] {R : α → α → Prop} {step step' : α → Synth β}
    {xs ys : List α} (shuffled : Shuffled R xs ys)
    (places : ∀ x y, R x y → Ordered.order x = Ordered.order y)
    (same : ∀ x ∈ xs, ∀ y, R x y → step x = step' y) :
    each step (Schema.inOrder xs) = each step' (Schema.inOrder ys) :=
  each_congr (shuffled.forall₂_inOrder places) fun x isMember =>
    same x (Schema.mem_inOrder.1 isMember)

section

variable (agrees : ctx.Agrees ctx')

include agrees

/-! ## Documentation -/

theorem unresolved_congr : unresolved ctx = unresolved ctx' := by
  funext context reference
  rw [unresolved, unresolved, agrees.config]

theorem resolve_congr : resolve ctx = resolve ctx' := by
  funext context reference
  have sameLookup : ctx.lookup? reference = ctx'.lookup? reference := by
    rw [Context.lookup?, Context.lookup?, agrees.pages]
  rw [resolve, resolve, sameLookup, unresolved_congr agrees]

theorem resolveTarget_congr : resolveTarget ctx = resolveTarget ctx' := by
  funext context target
  unfold resolveTarget
  rw [resolve_congr agrees, unresolved_congr agrees, agrees.pages]

theorem renderLinks_congr : renderLinks ctx = renderLinks ctx' := by
  have samePiece (context : String) : renderPiece ctx context = renderPiece ctx' context := by
    funext piece
    cases piece with
    | char c => rfl
    | link link => rw [renderPiece, renderPiece, resolveTarget_congr agrees]
  funext context text
  rw [renderLinks, renderLinks, samePiece]

theorem documentation_congr : documentation ctx = documentation ctx' := by
  funext context source
  unfold documentation
  rw [renderLinks_congr agrees, resolve_congr agrees]

theorem describe_congr : describe ctx = describe ctx' := by
  funext context description
  rw [describe, describe, documentation_congr agrees]

theorem describeEntity_congr : describeEntity ctx = describeEntity ctx' := by
  funext name description notes examples
  rw [describeEntity, describeEntity, documentation_congr agrees]

/-! ## Types -/

theorem dictionaryType_congr {key key' : TypeExpr} (keys : key.Reordered key') (context : String)
    (keyType valueType : Ty) :
    dictionaryType ctx context key keyType valueType =
      dictionaryType ctx' context key' keyType valueType := by
  have sameKind : isIndexable ctx key = isIndexable ctx' key' := by
    rw [isIndexable, isIndexable, keys.name?_eq, agrees.config, agrees.defines]
  rw [dictionaryType, dictionaryType, sameKind, keys.text_eq]

omit agrees in
theorem mapArguments_congr {context : String} {types types' : List TypeExpr}
    (related : List.Forall₂ TypeExpr.Reordered types types')
    (same : ∀ t ∈ types, ∀ t', t.Reordered t' → mapType ctx context t = mapType ctx' context t')
    (number : Nat) :
    mapArguments ctx context number types = mapArguments ctx' context number types' := by
  induction related generalizing number with
  | nil => rw [mapArguments, mapArguments]
  | @cons t t' types types' here _ ih =>
    rw [mapArguments, mapArguments, same t List.mem_cons_self t' here,
      ih fun t isMember => same t (List.mem_cons_of_mem _ isMember)]

theorem parameterProperty_congr {p p' : Parameter} (reordered : p.Reordered p')
    (same : ∀ context, mapType ctx context p.type = mapType ctx' context p'.type)
    (context : String) :
    parameterProperty ctx context p = parameterProperty ctx' context p' := by
  cases reordered with
  | mk name order description optional types =>
    rw [parameterProperty, parameterProperty, same, describe_congr agrees]

/-- A type is mapped alike in contexts that agree. -/
theorem mapType_congr {t t' : TypeExpr} (reordered : t.Reordered t') (context : String) :
    mapType ctx context t = mapType ctx' context t' := by
  induction t using TypeExpr.induct generalizing t' context with
  | named name =>
    cases reordered
    rw [mapType, mapType]
  | array value ih =>
    cases reordered with
    | array values => rw [mapType, mapType, ih values]
  | dictionary key value ihKey ihValue =>
    cases reordered with
    | dictionary keys values =>
      rw [mapType, mapType, ihKey keys, ihValue values]
      simp only [dictionaryType_congr agrees keys]
  | variant options ih =>
    cases reordered with
    | variant same =>
      rw [mapType, mapType, mapTypes_eq_each, mapTypes_eq_each,
        each_congr same fun t isMember t' reordered => ih t isMember reordered context]
  | function arguments ih =>
    cases reordered with
    | function same =>
      rw [mapType, mapType,
        mapArguments_congr same fun t isMember t' reordered => ih t isMember reordered context]
  | lazy value ih =>
    cases reordered with
    | lazy values => rw [mapType, mapType, ih values]
  | customTable key value ihKey ihValue =>
    cases reordered with
    | customTable keys values => rw [mapType, mapType, ihKey keys, ihValue values]
  | table parameters groups groupDescription ih =>
    cases reordered with
    | table shapes =>
      cases shapes with
      | mk groupDescription shared grouped =>
        -- The groups of an inline table are dropped, in whatever order they are.
        have sameMembers := each_inOrder_congr shared (fun _ _ => Parameter.Reordered.order_eq)
          fun p isMember p' reordered => parameterProperty_congr agrees reordered
            (fun inner => ih p isMember reordered.type inner) context
        rw [mapType, mapType, mapShape, mapShape, parameterSteps_eq_map, parameterSteps_eq_map,
          inOrder_placed, inOrder_placed, sameMembers]

theorem parameterMembers_congr {parameters parameters' : List Parameter}
    (shuffled : Shuffled Parameter.Reordered parameters parameters') (context : String) :
    parameterMembers ctx context parameters = parameterMembers ctx' context parameters' := by
  rw [parameterMembers_eq_each, parameterMembers_eq_each]
  exact each_inOrder_congr shuffled (fun _ _ => Parameter.Reordered.order_eq)
    fun p _ p' reordered => parameterProperty_congr agrees reordered
      (fun inner => mapType_congr agrees reordered.type inner) context

/-! ## Tables with variants -/

section Variants

variable {table table' : VariantTable} (reordered : table.Reordered table')

include reordered

theorem variantBase_congr : variantBase ctx table = variantBase ctx' table' := by
  cases reordered with
  | @intro parameters groups shared grouped =>
    have filtered : Shuffled Parameter.Reordered table.baseParameters
        (VariantTable.baseParameters { table with parameters, groups }) :=
      shared.filter fun p p' reordered => by rw [reordered.name_eq]
    rw [variantBase, variantBase, parameterMembers_congr agrees filtered]
    rfl

theorem variantGroup_congr {group group' : ParameterGroup} (groups : group.Reordered group') :
    variantGroup ctx table group = variantGroup ctx' table' group' := by
  cases reordered with
  | intro shared grouped =>
    cases groups with
    | mk name order description shuffled =>
      unfold variantGroup VariantTable.narrowedProperty
      rw [parameterMembers_congr agrees shuffled, agrees.defines]
      rfl

omit agrees in
/-- The union names the groups in their order, which is the same for both tables. -/
theorem variantUnion_congr {groups groups' : List ParameterGroup}
    (related : List.Forall₂ ParameterGroup.Reordered groups groups') :
    variantUnion table groups = variantUnion table' groups' := by
  have sameNames : groups.map (fun group => Ty.named (table.groupName group)) =
      groups'.map fun group => Ty.named (table'.groupName group) := by
    refine map_eq_of_forall₂ related fun group group' groups => ?_
    cases reordered
    cases groups
    rfl
  cases related with
  | nil =>
    cases reordered
    rfl
  | cons here others => exact congrArg Ty.unionOf sameNames

/-- The parameters and groups are sorted before anything is declared. -/
theorem expandVariants_congr (doc : Option String) :
    expandVariants ctx table doc = expandVariants ctx' table' doc := by
  have sameBase := variantBase_congr agrees reordered
  have sameGroups : each (variantGroup ctx table) (Schema.inOrder table.groups) =
      each (variantGroup ctx' table') (Schema.inOrder table'.groups) := by
    refine each_inOrder_congr reordered.groups (fun _ _ => ParameterGroup.Reordered.order_eq)
      fun group _ group' groups => variantGroup_congr agrees reordered groups
  have sameUnion := variantUnion_congr reordered
    (reordered.groups.forall₂_inOrder fun _ _ => ParameterGroup.Reordered.order_eq)
  rw [expandVariants, expandVariants, sameBase, sameGroups, sameUnion, reordered.name_eq]

end Variants

/-! ## Members -/

theorem synthesizeAttribute_congr {attr attr' : Attribute} (reordered : attr.Reordered attr')
    (entity : String) :
    synthesizeAttribute ctx entity attr = synthesizeAttribute ctx' entity attr' := by
  cases reordered with
  | intro types =>
    rw [synthesizeAttribute, synthesizeAttribute, mapType_congr agrees types]
    rfl

theorem mergeAttribute_congr {attr attr' : Attribute} (reordered : attr.Reordered attr')
    (entity : String) (o : Option Override) :
    mergeAttribute ctx entity o attr = mergeAttribute ctx' entity o attr' := by
  rw [mergeAttribute, mergeAttribute, documentation_congr agrees,
    synthesizeAttribute_congr agrees reordered]
  cases reordered
  rfl

/-- Properties come in the order of the parameters' places. -/
theorem mergeParameters_congr {parameters parameters' : List Parameter}
    (shuffled : Shuffled Parameter.Reordered parameters parameters') (entity : String)
    (o : Option Override) :
    mergeParameters ctx entity o parameters = mergeParameters ctx' entity o parameters' := by
  refine each_inOrder_congr shuffled (fun _ _ => Parameter.Reordered.order_eq)
    fun p _ p' reordered => ?_
  cases reordered with
  | mk name order description optional types =>
    unfold mergeParameter synthesizeParameter
    rw [describe_congr agrees, mapType_congr agrees types]

theorem flagMember_congr : flagMember ctx = flagMember ctx' := by
  funext name o option
  rw [flagMember, flagMember, describe_congr agrees]

/-! ## Parameters by position -/

omit agrees in
theorem lastRequired_congr {sorted sorted' : List Parameter}
    (related : List.Forall₂ Parameter.Reordered sorted sorted') :
    lastPosition? (fun p => !p.optional) sorted = lastPosition? (fun p => !p.optional) sorted' := by
  have same : sorted.map Parameter.optional = sorted'.map Parameter.optional := by
    induction related with
    | nil => rfl
    | cons here _ ih => rw [List.map_cons, List.map_cons, here.optional_eq, ih]
  rw [← lastPosition?_map not Parameter.optional, same, lastPosition?_map]

omit agrees in
theorem positionalParam_congr {p p' : Parameter} (reordered : p.Reordered p') (last : Option Nat)
    (index : Nat) : positionalParam last index p = positionalParam last index p' := by
  funext ty
  rw [positionalParam, positionalParam, reordered.optional_eq, reordered.name_eq]

/-- Parameters are sorted first, and the last required one is searched for in the sorted list. -/
theorem positionalParams_congr {parameters parameters' : List Parameter}
    (shuffled : Shuffled Parameter.Reordered parameters parameters') (context : String) :
    positionalParams ctx context parameters = positionalParams ctx' context parameters' := by
  have related := shuffled.forall₂_inOrder fun _ _ => Parameter.Reordered.order_eq
  rw [positionalParams, positionalParams, lastRequired_congr related]
  generalize lastPosition? _ _ = last, 0 = index
  generalize Schema.inOrder parameters = sorted, Schema.inOrder parameters' = sorted' at related ⊢
  induction related generalizing index with
  | nil => rfl
  | cons here _ ih =>
    rw [positionalParamsFrom, positionalParamsFrom, positionalParam_congr here, here.name_eq,
      mapType_congr agrees here.type, ih]

theorem fieldAndElement_congr {p p' : Parameter} (reordered : p.Reordered p') (name : String)
    (last : Option Nat) (index : Nat) :
    fieldAndElement ctx name last index p = fieldAndElement ctx' name last index p' := by
  simp only [fieldAndElement, positionalElement, reordered.name_eq, reordered.description_eq,
    reordered.optional_eq, mapType_congr agrees reordered.type, describe_congr agrees]

theorem tableOrArrayType_congr {parameters parameters' : List Parameter}
    (shuffled : Shuffled Parameter.Reordered parameters parameters') (name : String) :
    tableOrArrayType ctx name parameters = tableOrArrayType ctx' name parameters' := by
  have related := shuffled.forall₂_inOrder fun _ _ => Parameter.Reordered.order_eq
  rw [tableOrArrayType, tableOrArrayType, lastRequired_congr related]
  congr 1
  generalize lastPosition? _ _ = last, 0 = index
  generalize Schema.inOrder parameters = sorted, Schema.inOrder parameters' = sorted' at related ⊢
  induction related generalizing index with
  | nil => rfl
  | cons here _ ih =>
    rw [fieldsAndElements, fieldsAndElements, fieldAndElement_congr agrees here, ih]

/-! ## Methods -/

section Methods

variable {method method' : Method} (reordered : method.Reordered method') (className : String)

include reordered

/-- Whether a method takes a table does not depend on any order. -/
theorem methodParams_congr :
    methodParams ctx className method = methodParams ctx' className method' := by
  cases reordered with
  | @intro parameters groups _ _ shared grouped variadic returns =>
    have variants (name : String) : VariantTable.Reordered
        ⟨name, method.parameters, method.groups, method.groupDescription⟩
        ⟨name, parameters, groups, method.groupDescription⟩ := .intro shared grouped
    simp only [methodParams, tableParam, parameterMembers_congr agrees shared,
      positionalParams_congr agrees shared, grouped.isEmpty_eq,
      expandVariants_congr agrees (variants _)]
    rfl

omit reordered in
theorem variadicParams_congr {type type' : Option TypeExpr}
    (types : Option.Rel TypeExpr.Reordered type type') (context : String) :
    variadicParams ctx context type = variadicParams ctx' context type' := by
  cases types with
  | none => rfl
  | some types => rw [variadicParams, variadicParams, mapType_congr agrees types]

omit reordered in
theorem returnType_congr {values values' : List ReturnValue}
    (shuffled : Shuffled ReturnValue.Reordered values values') (context : String) :
    returnType ctx context values = returnType ctx' context values' := by
  have sameTypes : each (returnValueType ctx context) (Schema.inOrder values) =
      each (returnValueType ctx' context) (Schema.inOrder values') := by
    refine each_inOrder_congr shuffled (fun _ _ reordered => ?_) fun value _ value' reordered => ?_
    · cases reordered
      rfl
    · cases reordered with
      | intro types => rw [returnValueType, returnValueType, mapType_congr agrees types]
  rw [returnType, returnType, sameTypes]

theorem signature_congr : signature ctx className method = signature ctx' className method' := by
  have sameParams := methodParams_congr agrees reordered className
  cases reordered with
  | intro shared grouped variadic returns =>
    rw [signature, signature, sameParams, variadicParams_congr agrees variadic,
      returnType_congr agrees returns]

theorem methodDoc_congr (context : String) :
    methodDoc ctx context method = methodDoc ctx' context method' := by
  rw [methodDoc, methodDoc, documentation_congr agrees]
  cases reordered
  rfl

/-- The member for a method depends on its parameters only as they are sorted. -/
theorem mergeMethod_congr (o : Option Override) :
    mergeMethod ctx className o method = mergeMethod ctx' className o method' := by
  have sameName : method.name = method'.name := by
    cases reordered
    rfl
  rw [mergeMethod, mergeMethod, sameName, methodDoc_congr agrees reordered,
    signature_congr agrees reordered]

theorem callMember_congr :
    callMember ctx className method = callMember ctx' className method' := by
  rw [callMember, callMember, methodDoc_congr agrees reordered, signature_congr agrees reordered]

end Methods

end

end Synth

end Typings

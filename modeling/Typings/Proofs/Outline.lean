import Typings.Proofs.AskedOverrides
import Typings.Proofs.Layout

/-! # Outline of the output

The names of the declarations that a run makes can be read off the document and the overrides, and
so can the references that a run puts in of its own accord. The schema has other references of its
own; these are not followed here.

* `OwnReference`, `Declaration.Holds`: the references that a run puts in, and where they stand.
* `Outline`: what is known of a declaration beforehand.
* `Schema.Document.outline`: the outline of the output for a document.
* `Synth.segments_outline`: the declarations that a run makes have this outline.
-/

namespace Typings

open Schema (BuiltinType Class Concept ConceptKind Document Event GlobalObject Method
  ParameterGroup TableShape)

/-! ## References of a run -/

/-- A reference that a run puts into a declaration of its own accord. -/
inductive OwnReference where
  /-- The one supertype of an interface. -/
  | base (target : String)
  /-- An alias for the union of the targets. -/
  | options (targets : List String)
  /-- An alias for the intersection of the targets. -/
  | parts (targets : List String)
  /-- The table that a method takes, or the call signature, which has no name. -/
  | params (member : Option String) (target : String)
  /-- The marker interface among the supertypes. -/
  | marker (target : String)
  deriving DecidableEq, Repr

def OwnReference.targets : OwnReference → List String
  | .base target => [target]
  | .options targets => targets
  | .parts targets => targets
  | .params _ target => [target]
  | .marker target => [target]

def Member.params : Member → List Param
  | .method _ params _ _ => params
  | .call params _ _ => params
  | _ => []

/-- The first parameter of the member is a table of the type. -/
def Member.TakesTable (member : Member) (target : String) : Prop :=
  ∃ param rest, member.params = param :: rest ∧ param.name = "params" ∧ param.ty = .named target

/-- The declaration has the reference in its place. -/
inductive Declaration.Holds : Declaration → OwnReference → Prop
  | base {decl : Interface} {target : String} (only : decl.supertypes = [.named target]) :
      Holds (.interface decl) (.base target)
  | options {decl : Alias} {targets : List String}
      (same : decl.ty = .unionOf (targets.map .named)) : Holds (.alias decl) (.options targets)
  | parts {decl : Alias} {targets : List String}
      (same : decl.ty = .intersection (targets.map .named)) : Holds (.alias decl) (.parts targets)
  | params {decl : Interface} {member : Member} {target : String} (isMember : member ∈ decl.members)
      (takes : member.TakesTable target) : Holds (.interface decl) (.params member.name? target)
  | marker {decl : Interface} {target : String} (isMember : .named target ∈ decl.supertypes) :
      Holds (.interface decl) (.marker target)

/-! ## Outlines -/

/-- What is known of a declaration before it is made: its name and the references that the run puts
    into it. -/
structure Outline where
  name : String
  references : List OwnReference := []
  deriving DecidableEq, Repr

def Outline.Describes (outline : Outline) (decl : Declaration) : Prop :=
  decl.name = outline.name ∧ ∀ reference ∈ outline.references, decl.Holds reference

/-- The names of the types that the type of the table is the union of. -/
def VariantTable.optionNames (table : VariantTable) : List String :=
  match Schema.inOrder table.groups with
  | [] => [table.baseName]
  | groups => groups.map table.groupName

/-- The base interface, an interface for each group, and the type of the table. -/
def VariantTable.outline (table : VariantTable) : List Outline :=
  ⟨table.baseName, []⟩
    :: (Schema.inOrder table.groups).map
      (fun group => ⟨table.groupName group, [.base table.baseName]⟩)
    ++ [⟨table.name, [.options table.optionNames]⟩]

/-- The table with variants that a method takes, unless the override has a method of the name. -/
def Schema.Method.ownTable? (method : Method) (entity : String) (o : Option Override) :
    Option VariantTable :=
  if method.takesTable ∧ method.groups ≠ [] ∧ memberOf? o method.name = none then
    some ⟨Synth.paramsName entity method, method.parameters, method.groups,
      method.groupDescription⟩
  else none

def Schema.Method.outline (method : Method) (entity : String) (o : Option Override) :
    List Outline :=
  (method.ownTable? entity o).toList.flatMap VariantTable.outline

def Schema.Method.references (method : Method) (entity : String) (o : Option Override)
    (member : Option String) : List OwnReference :=
  (method.ownTable? entity o).toList.map fun table => .params member table.name

namespace Schema.Class

variable (c : Class) (o : Option Override)

/-- The methods that a class does not leave to the marker interface, in order. -/
def keptMethods : List Method :=
  (inOrder c.methods).filter fun m => c.keeps m.name

def helperOutline : List Outline :=
  (c.callOperator?.toList.flatMap fun call => call.outline c.name none)
    ++ c.keptMethods.flatMap fun m => m.outline c.name o

def memberReferences : List OwnReference :=
  (c.callOperator?.toList.flatMap fun call => call.references c.name none none)
    ++ c.keptMethods.flatMap fun m => m.references c.name o (some m.name)

/-- The references of the interface for the members of a class. -/
def references (marker : String) : List OwnReference :=
  (if c.hasTriad then [.marker marker] else []) ++ c.memberReferences o

/-- Whether the interface for the members and the type of the index are apart. -/
def isSplit : Bool :=
  o.any (·.isArrayLike) && ((o.bind (·.indexShape)).isSome || c.indexOperator?.isSome)

def outline (marker : String) : List Outline :=
  c.helperOutline o ++
    if c.isSplit o then
      [⟨c.name ++ "Members", c.references o marker⟩, ⟨c.name ++ "Index", []⟩,
        ⟨c.name, [.parts [c.name ++ "Members", c.name ++ "Index"]]⟩]
    else [⟨c.name, c.references o marker⟩]

def markerOutline (marker : String) : List Outline :=
  let help := (c.method? helpMethod).toList
  (help.flatMap fun m => m.outline marker none)
    ++ [⟨marker, help.flatMap fun m => m.references marker none (some m.name)⟩]

end Schema.Class

def Schema.ConceptKind.tableShape? : ConceptKind → Option TableShape
  | .table shape | .filter shape => some shape
  | _ => none

def Schema.Concept.ownTable? (concept : Concept) : Option VariantTable := do
  let shape ← concept.kind.tableShape?
  if shape.groups = [] then none
  else
    some ⟨concept.name, shape.parameters, shape.groups,
      some (shape.groupDescription.getD concept.description)⟩

def Schema.Concept.outline (concept : Concept) (store : OverrideStore) : List Outline :=
  match concept.ownTable? with
  | some table => if store.contains concept.name then [⟨concept.name, []⟩] else table.outline
  | none => [⟨concept.name, []⟩]

def Schema.BuiltinType.outline (builtin : BuiltinType) (store : OverrideStore) (config : Config) :
    List Outline :=
  if config.isNative builtin.name ∧ store.get? builtin.name = none then []
  else [⟨builtin.name, []⟩]

namespace Schema.Document

variable (document : Document) (store : OverrideStore) (config : Config)

/-- The marker interface is made from the first class that extends it. -/
def markerOutline : List Outline :=
  if store.contains config.markerSupertype then []
  else ((inOrder document.classes).find? Class.hasTriad).toList.flatMap
    (Class.markerOutline · config.markerSupertype)

def outline : List Outline :=
  ((inOrder document.builtinTypes).flatMap fun b => b.outline store config)
    ++ (if document.defines = [] then [] else [⟨config.constantsRoot, []⟩])
    ++ ((inOrder document.events).map fun event => ⟨Text.pascalCase event.name ++ "Event", []⟩)
    ++ (((inOrder document.classes).flatMap fun c =>
        c.outline (store.structural? c.name) config.markerSupertype)
      ++ document.markerOutline store config)
    ++ ((inOrder document.concepts).flatMap fun concept => concept.outline store)
    ++ ((inOrder document.globalObjects).map fun object => ⟨object.name, []⟩)
    ++ ((store.overrides.filter fun o =>
      ¬ document.AsksFor store config.constantsRoot o.name).map fun o => ⟨o.name, []⟩)

end Schema.Document

namespace Synth

variable {ctx : Context} {s s' : Session}

/-! ## Tables with variants -/

theorem variantUnion_eq (table : VariantTable) :
    variantUnion table (Schema.inOrder table.groups) = .unionOf (table.optionNames.map .named) := by
  rw [VariantTable.optionNames]
  cases Schema.inOrder table.groups with
  | nil => rfl
  | cons group groups => simp only [variantUnion, List.map_map, Function.comp_def]

theorem variantGroup_outline {table : VariantTable} {group : ParameterGroup} {decl : Declaration}
    (runs : Runs (variantGroup ctx table group) s decl s') :
    Outline.Describes ⟨table.groupName group, [.base table.baseName]⟩ decl := by
  obtain ⟨members, t, _, runs⟩ := runs_bind.1 runs
  obtain ⟨rfl, _⟩ := runs_pure.1 runs
  refine ⟨rfl, fun reference isMember => ?_⟩
  cases List.mem_singleton.1 isMember
  exact .base rfl

/-- The declarations of a table with variants refer to each other as the outline says. -/
theorem expandVariants_outline {table : VariantTable} {doc : Option String}
    {block : List Declaration} (runs : Runs (expandVariants ctx table doc) s block s') :
    List.Forall₂ Outline.Describes table.outline block := by
  obtain ⟨base, t₁, baseMade, runs⟩ := runs_bind.1 runs
  obtain ⟨interfaces, t₂, groupsMade, runs⟩ := runs_bind.1 runs
  obtain ⟨rfl, _⟩ := runs_pure.1 runs
  refine List.rel_append (.cons ?_ ?_) (.cons ?_ .nil)
  · obtain ⟨members, t, _, made⟩ := runs_bind.1 baseMade
    obtain ⟨rfl, _⟩ := runs_pure.1 made
    exact ⟨rfl, by simp⟩
  · rw [List.forall₂_map_left_iff]
    refine groupsMade.forall₂.imp ?_
    rintro group decl ⟨t, t', made⟩
    exact variantGroup_outline made
  · refine ⟨rfl, fun reference isMember => ?_⟩
    cases List.mem_singleton.1 isMember
    exact .options (variantUnion_eq table)

/-! ## Methods -/

theorem Answers.name?_eq {o : Option Override} {asked : AskedMember} {member : Member}
    (answers : Answers o asked member) : member.name? = some asked.name := by
  cases answers with
  | claimed isFound _ same =>
    obtain ⟨doc, rfl⟩ := same
    obtain ⟨o, rfl, isFirst⟩ := Option.bind_eq_some_iff.1 isFound
    have named := List.find?_some isFirst
    rw [withDefaultDoc]
    split <;> simpa using named
  | synthesized _ named _ => exact named

def TakenBy (member : Member) (reference : OwnReference) : Prop :=
  ∃ target, member.TakesTable target ∧ reference = .params member.name? target

theorem TakenBy.holds {decl : Interface} {member : Member} {reference : OwnReference}
    (taken : TakenBy member reference) (isMember : member ∈ decl.members) :
    (Declaration.interface decl).Holds reference := by
  obtain ⟨target, takes, rfl⟩ := taken
  exact .params isMember takes

/-- The declarations that a method comes with and its member, beside what is known of them. -/
structure Signed (method : Method) (entity : String) (o : Option Override)
    (member : Option String) (made : List Declaration × Member) : Prop where
  declared : List.Forall₂ Outline.Describes (method.outline entity o) made.1
  named : made.2.name? = member
  takes : ∀ table, method.ownTable? entity o = some table → made.2.TakesTable table.name

section Signatures

variable {entity : String} {o : Option Override} {method : Method}
  {made : List Declaration × Member}

/-- A table among the parameters is declared in front of the method that takes it. -/
theorem signature_outline {decls : List Declaration} {params : List Param} {ret : Option Ty}
    (absent : memberOf? o method.name = none)
    (runs : Runs (signature ctx entity method) s (decls, params, ret) s') :
    List.Forall₂ Outline.Describes (method.outline entity o) decls ∧
      ∀ table, method.ownTable? entity o = some table → ∃ param rest, params = param :: rest ∧
        param.name = "params" ∧ param.ty = .named table.name := by
  obtain ⟨⟨helpers, own⟩, t₁, paramsMade, runs⟩ := runs_bind.1 runs
  obtain ⟨variadic, t₂, _, runs⟩ := runs_bind.1 runs
  obtain ⟨result, t₃, _, runs⟩ := runs_bind.1 runs
  obtain ⟨same, _⟩ := runs_pure.1 runs
  cases same
  rw [methodParams] at paramsMade
  rw [Method.outline, Method.ownTable?]
  -- Only a table with variants is declared apart from the method.
  split at paramsMade
  next takesTable =>
    obtain ⟨⟨variants, param⟩, t, tableMade, paramsMade⟩ := runs_bind.1 paramsMade
    obtain ⟨same, _⟩ := runs_pure.1 paramsMade
    cases same
    rw [tableParam] at tableMade
    split at tableMade
    next plain =>
      obtain ⟨members, t', _, tableMade⟩ := runs_bind.1 tableMade
      obtain ⟨same, _⟩ := runs_pure.1 tableMade
      cases same
      rw [if_neg fun own => own.2.1 (List.isEmpty_iff.1 plain)]
      exact ⟨.nil, by simp⟩
    next grouped =>
      obtain ⟨variants', t', expanded, tableMade⟩ := runs_bind.1 tableMade
      obtain ⟨same, _⟩ := runs_pure.1 tableMade
      cases same
      have hasGroups : method.groups ≠ [] := fun isEmpty => grouped (List.isEmpty_iff.2 isEmpty)
      rw [if_pos ⟨takesTable, hasGroups, absent⟩]
      refine ⟨by simpa using expandVariants_outline expanded, fun table same => ?_⟩
      cases same
      exact ⟨_, variadic, rfl, rfl, rfl⟩
  next positional =>
    obtain ⟨positions, t, _, paramsMade⟩ := runs_bind.1 paramsMade
    obtain ⟨same, _⟩ := runs_pure.1 paramsMade
    cases same
    rw [if_neg fun own => positional own.1]
    exact ⟨.nil, by simp⟩

theorem callMember_signed (runs : Runs (callMember ctx entity method) s made s') :
    Signed method entity none none made := by
  obtain ⟨doc, t, _, runs⟩ := runs_bind.1 runs
  obtain ⟨⟨decls, params, ret⟩, t', signed, runs⟩ := runs_bind.1 runs
  obtain ⟨rfl, _⟩ := runs_pure.1 runs
  obtain ⟨declared, takes⟩ := signature_outline (o := none) rfl signed
  exact ⟨declared, rfl, takes⟩

theorem runs_claimMember {name : String} {shape : MemberShape} {doc : Option String}
    {claimed : Option Member} (runs : Runs (claimMember entity o name shape doc) s claimed s') :
    claimed.isSome = (memberOf? o name).isSome := by
  rw [memberOf?]
  rw [claimMember] at runs
  split at runs
  next absent =>
    obtain ⟨rfl, _⟩ := runs_pure.1 runs
    rw [absent]
  next found isFound =>
    split at runs
    · obtain ⟨_, t, _, runs⟩ := runs_bind.1 runs
      obtain ⟨rfl, _⟩ := runs_pure.1 runs
      rw [isFound]
      rfl
    · exact (not_runs_throw runs).elim

theorem mergeMethod_signed (runs : Runs (mergeMethod ctx entity o method) s made s') :
    Signed method entity o (some method.name) made := by
  have named := ((mergeMethod_merges ctx entity o method).answers _ _ _ runs).name?_eq
  obtain ⟨doc, t, _, runs⟩ := runs_bind.1 runs
  obtain ⟨claimed, t', claims, runs⟩ := runs_bind.1 runs
  have isThere := runs_claimMember claims
  -- Either the override has a method of the name, or the method is made from the schema.
  cases claimed with
  | some member =>
    obtain ⟨rfl, _⟩ := runs_pure.1 runs
    have noTable : method.ownTable? entity o = none := by
      rw [Method.ownTable?, if_neg]
      rintro ⟨_, _, absent⟩
      simp [absent] at isThere
    refine ⟨?_, named, by simp [noTable]⟩
    rw [Method.outline, noTable]
    exact .nil
  | none =>
    obtain ⟨⟨decls, params, ret⟩, t'', signed, runs⟩ := runs_bind.1 runs
    obtain ⟨rfl, _⟩ := runs_pure.1 runs
    have absent : memberOf? o method.name = none := by simpa using isThere.symm
    obtain ⟨declared, takes⟩ := signature_outline absent signed
    exact ⟨declared, rfl, takes⟩

theorem Signed.taken {member : Option String} (signed : Signed method entity o member made)
    {reference : OwnReference} (isOwn : reference ∈ method.references entity o member) :
    TakenBy made.2 reference := by
  obtain ⟨table, isTable, rfl⟩ := List.mem_map.1 isOwn
  rw [← signed.named]
  exact ⟨table.name, signed.takes table (Option.mem_toList.1 isTable), rfl⟩

end Signatures

theorem describes_flatten {α : Type} {xs : List α} {outline : α → List Outline}
    {blocks : List (List Declaration)}
    (each : List.Forall₂ (fun x block => List.Forall₂ Outline.Describes (outline x) block) xs
      blocks) :
    List.Forall₂ Outline.Describes (xs.flatMap outline) blocks.flatten := by
  rw [List.flatMap_def]
  exact List.rel_flatten (List.forall₂_map_left_iff.2 each)

theorem signed_each {entity : String} {o : Option Override}
    {step : Method → Synth (List Declaration × Member)} {methods : List Method}
    {made : List (List Declaration × Member)} (member : Method → Option String)
    (runs : Runs (each step methods) s made s')
    (signed : ∀ method t x t', Runs (step method) t x t' →
      Signed method entity o (member method) x) :
    List.Forall₂ Outline.Describes (methods.flatMap fun m => m.outline entity o)
        (made.flatMap (·.1)) ∧
      ∀ reference ∈ methods.flatMap fun m => m.references entity o (member m),
        ∃ taker ∈ made.map (·.2), TakenBy taker reference := by
  constructor
  · rw [List.flatMap_def (l := made)]
    apply describes_flatten
    rw [List.forall₂_map_right_iff]
    refine runs.forall₂.imp ?_
    rintro method x ⟨t, t', runs⟩
    exact (signed method t x t' runs).declared
  · intro reference isOwn
    obtain ⟨method, isMember, isOwn⟩ := List.mem_flatMap.1 isOwn
    obtain ⟨x, isMade, t, t', runs⟩ := exists_of_forall₂ runs.forall₂ isMember
    exact ⟨x.2, List.mem_map_of_mem isMade, (signed method t x t' runs).taken isOwn⟩

/-! ## Classes -/

section Classes

variable {c : Schema.Class} {o : Option Override}

/-- The tables of all methods are declared, and each is taken by its method. -/
theorem schemaMembers_outline {arrayLike : Bool} {decls : List Declaration}
    {members : List Member}
    (runs : Runs (schemaMembers ctx c o c.hasTriad arrayLike) s (decls, members) s') :
    List.Forall₂ Outline.Describes (c.helperOutline o) decls ∧
      ∀ reference ∈ c.memberReferences o, ∃ taker ∈ members, TakenBy taker reference := by
  obtain ⟨call, t₁, callMade, runs⟩ := runs_bind.1 runs
  obtain ⟨methods, t₂, methodsMade, runs⟩ := runs_bind.1 runs
  obtain ⟨attributes, t₃, _, runs⟩ := runs_bind.1 runs
  obtain ⟨length, t₄, _, runs⟩ := runs_bind.1 runs
  obtain ⟨same, _⟩ := runs_pure.1 runs
  cases same
  obtain ⟨callDeclared, callTaken⟩ :=
    signed_each (fun _ => none) callMade fun _ _ _ _ => callMember_signed
  obtain ⟨declared, taken⟩ :=
    signed_each (fun m => some m.name) methodsMade fun _ _ _ _ => mergeMethod_signed
  -- Attributes and the length come after the methods and need no declarations.
  constructor
  · rw [List.flatMap_append]
    exact List.rel_append callDeclared declared
  · intro reference isOwn
    simp only [List.map_append, List.mem_append]
    obtain isCall | isMethod := List.mem_append.1 isOwn
    · obtain ⟨taker, isMember, taken⟩ := callTaken reference isCall
      exact ⟨taker, .inl (.inl (.inl isMember)), taken⟩
    · obtain ⟨taker, isMember, taken⟩ := taken reference isMethod
      exact ⟨taker, .inl (.inl (.inr isMember)), taken⟩

/-- There is an index exactly if the override or an operator gives one. -/
theorem indexType_isSome {index : Option Ty} (runs : Runs (indexType ctx c o) s index s') :
    index.isSome = ((o.bind (·.indexShape)).isSome || c.indexOperator?.isSome) := by
  rw [indexType] at runs
  split at runs
  next shape _ isShape =>
    rw [isShape]
    split at runs
    · obtain ⟨rfl, _⟩ := runs_pure.1 runs
      rfl
    · exact (not_runs_throw runs).elim
  next operator noShape isOperator =>
    rw [noShape, isOperator]
    obtain ⟨value, t, _, runs⟩ := runs_bind.1 runs
    obtain ⟨rfl, _⟩ := runs_pure.1 runs
    rfl
  next noShape noOperator =>
    rw [noShape, noOperator]
    obtain ⟨rfl, _⟩ := runs_pure.1 runs
    rfl

/-- The interface for the members of a class. -/
theorem classInterface_outline {name : String} {members own : List Member} {doc : Option String}
    (taken : ∀ reference ∈ c.memberReferences o, ∃ taker ∈ own, TakenBy taker reference)
    (within : ∀ member ∈ own, member ∈ members) :
    Outline.Describes ⟨name, c.references o ctx.config.markerSupertype⟩
      (.interface ⟨name, classSupertypes ctx c o c.hasTriad, members, doc⟩) := by
  refine ⟨rfl, fun reference isOwn => ?_⟩
  obtain isMarker | isOwn := List.mem_append.1 isOwn
  · split at isMarker
    next triad =>
      cases List.mem_singleton.1 isMarker
      exact .marker (by simp [classSupertypes, triad])
    next => cases isMarker
  · obtain ⟨taker, isMember, taken⟩ := taken reference isOwn
    exact taken.holds (within taker isMember)

/-- The names that a class declares are known in advance, and so is what it refers to. -/
theorem classDeclarations_outline {block : List Declaration}
    (runs : Runs (classDeclarations ctx c) s block s') :
    List.Forall₂ Outline.Describes
      (c.outline (ctx.overrides.structural? c.name) ctx.config.markerSupertype) block := by
  obtain ⟨o, doc, decls, own, index, t, t', t'', rfl, _, schema, indexed, _, rfl⟩ :=
    runs_classDeclarations runs
  obtain ⟨declared, taken⟩ := schemaMembers_outline schema
  refine List.rel_append declared ?_
  have isThere : index.isSome = c.isSplit (ctx.overrides.structural? c.name) := by
    rw [Class.isSplit]
    split at indexed
    next arrayLike =>
      obtain ⟨u, indexed⟩ := indexed
      rw [arrayLike, Bool.true_and, indexType_isSome indexed]
    next plain => simp [plain, indexed]
  rw [← isThere]
  cases index with
  | some index =>
    refine .cons (classInterface_outline taken ?_) (.cons ⟨rfl, by simp⟩ (.cons ⟨rfl, ?_⟩ .nil))
    · simp +contextual
    · intro reference isMember
      cases List.mem_singleton.1 isMember
      exact .parts rfl
  | none =>
    refine .cons (classInterface_outline taken ?_) .nil
    simp +contextual

theorem markerDeclarations_outline {block : List Declaration}
    (runs : Runs (markerDeclarations ctx c) s block s') :
    List.Forall₂ Outline.Describes (c.markerOutline ctx.config.markerSupertype) block := by
  obtain ⟨help, t₁, helpMade, runs⟩ := runs_bind.1 runs
  obtain ⟨attributes, t₂, _, runs⟩ := runs_bind.1 runs
  obtain ⟨rfl, _⟩ := runs_pure.1 runs
  obtain ⟨declared, taken⟩ :=
    signed_each (fun m => some m.name) helpMade fun _ _ _ _ => mergeMethod_signed
  refine List.rel_append declared (.cons ⟨rfl, fun reference isOwn => ?_⟩ .nil)
  obtain ⟨taker, isMember, taken⟩ := taken reference isOwn
  exact taken.holds (List.mem_append_left _ isMember)

theorem classesFrom_keeps_marker {block : List Declaration} {marker' : Option (List Declaration)}
    {cs : List Schema.Class} {decls : List Declaration}
    (runs : Runs (classesFrom ctx (some block) cs) s (decls, marker') s') :
    marker' = some block := by
  induction cs generalizing decls s with
  | nil =>
    obtain ⟨same, _⟩ := runs_pure.1 runs
    cases same
    rfl
  | cons c cs ih =>
    obtain ⟨marker₁, t, _, t', rest, made, _, behind, rfl⟩ := runs_classesFrom_cons ctx runs
    rw [markerAt, needsMarker, if_neg (by simp)] at made
    obtain ⟨rfl, _⟩ := runs_pure.1 made
    exact ih behind

/-- The marker interface is made from the first class that extends it, if it has no override. -/
theorem classesFrom_marker_outline {marker : Option (List Declaration)} {cs : List Schema.Class}
    {decls : List Declaration} (runs : Runs (classesFrom ctx none cs) s (decls, marker) s') :
    List.Forall₂ Outline.Describes
      (if ctx.overrides.contains ctx.config.markerSupertype then []
        else (cs.find? Class.hasTriad).toList.flatMap
          (Class.markerOutline · ctx.config.markerSupertype))
      (marker.getD []) := by
  induction cs generalizing decls s with
  | nil =>
    obtain ⟨same, _⟩ := runs_pure.1 runs
    cases same
    simp
  | cons c cs ih =>
    obtain ⟨marker₁, t, _, t', rest, made, _, behind, rfl⟩ := runs_classesFrom_cons ctx runs
    rw [markerAt, needsMarker] at made
    -- The first class that needs the interface makes it; the classes behind it leave it as it is.
    split at made
    next needed =>
      obtain ⟨block, isMade, rfl⟩ := runs_map.1 made
      obtain rfl := classesFrom_keeps_marker behind
      simp only [Option.isNone_none, Bool.and_true, Bool.and_eq_true, Bool.not_eq_true'] at needed
      simpa [needed] using markerDeclarations_outline isMade
    next notNeeded =>
      obtain ⟨rfl, _⟩ := runs_pure.1 made
      have outline := ih behind
      by_cases overridden : ctx.overrides.contains ctx.config.markerSupertype
      · simpa [overridden] using outline
      · have notTriad : ¬ c.hasTriad := by simpa [overridden] using notNeeded
        rwa [List.find?_cons_of_neg notTriad]

/-- The marker interface is outlined behind all classes. -/
theorem classes_outline {segment : List Declaration} (runs : Runs (classes ctx) s segment s') :
    List.Forall₂ Outline.Describes
      (((Schema.inOrder ctx.document.classes).flatMap fun c =>
          c.outline (ctx.overrides.structural? c.name) ctx.config.markerSupertype)
        ++ ctx.document.markerOutline ctx.overrides ctx.config) segment := by
  obtain ⟨⟨decls, marker⟩, t, made, runs⟩ := runs_bind.1 runs
  obtain ⟨rfl, _⟩ := runs_pure.1 runs
  obtain ⟨blocks, each, rfl⟩ := Runs.classes ctx made
  refine List.rel_append (describes_flatten (each.imp ?_)) (classesFrom_marker_outline made)
  rintro c block ⟨t, t', runs⟩
  exact classDeclarations_outline runs

end Classes

/-! ## Other entities -/

theorem describes_of_single {name : String} {block : List Declaration}
    (single : IsSingle name block) : List.Forall₂ Outline.Describes [⟨name, []⟩] block := by
  obtain ⟨decl, rfl, named⟩ := single
  exact .cons ⟨named, by simp⟩ .nil

/-- A table without variants, or with an override, is one declaration. -/
theorem tableConcept_outline {concept : Concept} {shape : TableShape} {doc : Option String}
    {block : List Declaration} (runs : Runs (tableConcept ctx concept shape doc) s block s') :
    List.Forall₂ Outline.Describes
      (if shape.groups = [] ∨ ctx.overrides.contains concept.name then [⟨concept.name, []⟩]
        else VariantTable.outline ⟨concept.name, shape.parameters, shape.groups,
          some (shape.groupDescription.getD concept.description)⟩)
      block := by
  rw [tableConcept] at runs
  split at runs
  next plain =>
    rw [if_pos (.inl (List.isEmpty_iff.1 plain))]
    exact describes_of_single (structuralConcept_single runs)
  next grouped =>
    rw [List.isEmpty_iff] at grouped
    obtain ⟨_, t, _, runs⟩ := runs_findOverride_bind runs
    rw [OverrideStore.contains_eq_isSome_get?]
    cases isFound : ctx.overrides.get? concept.name with
    | some o =>
      simp only [isFound] at runs
      obtain ⟨rfl, _⟩ := runs_pure.1 runs
      rw [if_pos (.inr rfl)]
      exact describes_of_single (.intro (name_verbatim doc isFound))
    | none =>
      simp only [isFound] at runs
      rw [if_neg (by simp [grouped])]
      exact expandVariants_outline runs

/-- The declarations of a concept are those of its outline. -/
theorem conceptDeclarations_outline {concept : Concept} {block : List Declaration}
    (runs : Runs (conceptDeclarations ctx concept) s block s') :
    List.Forall₂ Outline.Describes (concept.outline ctx.overrides) block := by
  obtain ⟨doc, t, _, runs⟩ := runs_bind.1 runs
  rw [documentedConcept] at runs
  rw [Concept.outline, Concept.ownTable?]
  cases isKind : concept.kind <;> simp only [isKind] at runs
  case prose => exact describes_of_single (proseConcept_single runs)
  case union | enumeration | tableOrArray => exact describes_of_single (aliasConcept_single runs)
  case «structure» | flag => exact describes_of_single (structuralConcept_single runs)
  case table shape | filter shape =>
    have outline := tableConcept_outline runs
    by_cases plain : shape.groups = [] <;> simpa [ConceptKind.tableShape?, plain] using outline

theorem concepts_outline {segment : List Declaration} (runs : Runs (concepts ctx) s segment s') :
    List.Forall₂ Outline.Describes
      ((Schema.inOrder ctx.document.concepts).flatMap fun concept =>
        concept.outline ctx.overrides) segment := by
  obtain ⟨blocks, t, made, continues⟩ := runs_bind.1 runs
  obtain ⟨rfl, _⟩ := runs_pure.1 continues
  refine describes_flatten (made.forall₂.imp ?_)
  rintro concept block ⟨t, t', runs⟩
  exact conceptDeclarations_outline runs

theorem builtins_outline {segment : List Declaration} (runs : Runs (builtins ctx) s segment s') :
    List.Forall₂ Outline.Describes
      ((Schema.inOrder ctx.document.builtinTypes).flatMap fun b =>
        b.outline ctx.overrides ctx.config) segment := by
  obtain ⟨blocks, t, made, continues⟩ := runs_bind.1 runs
  obtain ⟨rfl, _⟩ := runs_pure.1 continues
  refine describes_flatten (made.forall₂.imp ?_)
  rintro builtin block ⟨t, t', runs⟩
  have single := builtinDeclarations_single runs
  rw [BuiltinType.outline]
  split at single
  next native =>
    rw [if_pos native, single]
    exact .nil
  next declared =>
    rw [if_neg declared]
    exact describes_of_single single

theorem constants_outline {segment : List Declaration} (runs : Runs (constants ctx) s segment s') :
    List.Forall₂ Outline.Describes
      (if ctx.document.defines = [] then [] else [⟨ctx.config.constantsRoot, []⟩]) segment := by
  have segment := constants_segment runs
  split at segment
  next isEmpty =>
    rw [segment, if_pos isEmpty]
    exact .nil
  next given =>
    obtain ⟨body, rfl⟩ := segment
    rw [if_neg given]
    exact describes_of_single (.intro rfl)

theorem each_outline {α : Type} {step : α → Synth Declaration} {name : α → String} {xs : List α}
    {segment : List Declaration} (runs : Runs (each step xs) s segment s')
    (named : ∀ x t decl t', Runs (step x) t decl t' → decl.name = name x) :
    List.Forall₂ Outline.Describes (xs.map fun x => ⟨name x, []⟩) segment := by
  rw [List.forall₂_map_left_iff]
  refine runs.forall₂.imp ?_
  rintro x decl ⟨t, t', runs⟩
  exact ⟨named x t decl t' runs, by simp⟩

/-- Overrides that are left over declare their names and refer to nothing that a run makes up. -/
theorem unmatchedOverrides_outline {made : Segments}
    (runs : Runs (segments ctx) {} made s') :
    List.Forall₂ Outline.Describes
      ((ctx.overrides.overrides.filter fun o =>
        ¬ ctx.document.AsksFor ctx.overrides ctx.config.constantsRoot o.name).map fun o =>
          ⟨o.name, []⟩) made.unmatchedOverrides := by
  obtain ⟨_, _, _, _, _, _, _, _, _, _, _, unmatched⟩ := runs_segments ctx runs
  -- What is left over was not used, and what the document asks for is what was used.
  have same : (ctx.overrides.overrides.filter fun o => !s'.hasUsed o.name) =
      ctx.overrides.overrides.filter fun o =>
        ¬ ctx.document.AsksFor ctx.overrides ctx.config.constantsRoot o.name := by
    refine List.filter_congr fun o isMember => ?_
    have isThere : ctx.overrides.contains o.name :=
      OverrideStore.contains_iff.2 (List.mem_map_of_mem isMember)
    rw [Bool.eq_iff_iff, Bool.not_eq_true', ← Bool.not_eq_true, decide_eq_true_iff,
      Session.hasUsed, List.contains_iff_mem, mem_usedOverrides runs]
    simp [isThere]
  rw [unmatched, Typings.unmatchedOverrides, same, List.forall₂_map_left_iff,
    List.forall₂_map_right_iff, List.forall₂_same]
  intro o _
  exact ⟨Declaration.name_withDoc _ _, by simp⟩

/-! ## The whole output -/

/-- Everything that a run declares is known in advance by its name. -/
theorem segments_outline {document : Document} {store : OverrideStore} {config : Config}
    {made : Segments} (runs : Runs (segments (.of document store config)) {} made s') :
    List.Forall₂ Outline.Describes (document.outline store config) made.declarations := by
  obtain ⟨t₁, t₂, t₃, t₄, t₅, builtins, constants, events, classes, concepts, globals, _⟩ :=
    runs_segments _ runs
  have toClasses := List.rel_append
    (List.rel_append (List.rel_append (builtins_outline builtins) (constants_outline constants))
      (each_outline events fun _ _ _ _ => eventDeclaration_name))
    (classes_outline classes)
  have toGlobals := List.rel_append (List.rel_append toClasses (concepts_outline concepts))
    (each_outline globals fun _ _ _ _ => globalDeclaration_name)
  exact List.rel_append toGlobals (unmatchedOverrides_outline runs)

end Synth

end Typings

import Typings.Proofs.Order
import Typings.Proofs.Remarks
import Typings.Synthesis.Classes
import Typings.Synthesis.Concepts

/-! # Steps that only read the schema

Documentation and types are made from the schema alone. Such a step uses no override, and it can
only fail on a link to an operator that does not exist.

* `Synth.LinksKnown`: a text without such a link.
* `Synth.FromSchema`: the steps that only read the schema, with the condition for their success.
* `Synth.mapType_fromSchema`: a type can be mapped when the links in its remarks are known.
-/

namespace Typings

open Schema (Parameter ParameterGroup TypeExpr)
open Text (Documentation InlineLink Piece)

/-- The links inside a text, from the left. -/
def Text.links (text : String) : List InlineLink :=
  (Text.pieces text.toList).filterMap fun
    | .link link => some link
    | .char _ => none

theorem Text.mem_links {text : String} {link : InlineLink} :
    link ∈ Text.links text ↔ Piece.link link ∈ Text.pieces text.toList := by
  simp only [Text.links, List.mem_filterMap]
  constructor
  · rintro ⟨piece, isMember, same⟩
    cases piece with
    | char c => cases same
    | link link' =>
      cases same
      exact isMember
  · intro isMember
    exact ⟨_, isMember, rfl⟩

namespace Synth

variable {α β : Type}

/-! ## Known links -/

def linkTarget (link : InlineLink) : Target :=
  .of (Text.trimEndChars (Text.trimStartChars link.target))

/-- No link inside the text is to an operator that does not exist. -/
def LinksKnown (text : String) : Prop :=
  ∀ link ∈ Text.links text, linkTarget link ≠ .unknownOperator

instance : DecidablePred LinksKnown :=
  fun text => inferInstanceAs (Decidable (∀ link ∈ Text.links text, _))

/-- No link inside the texts is to an operator that does not exist. -/
def AllKnown (texts : List String) : Prop :=
  ∀ text ∈ texts, LinksKnown text

instance : DecidablePred AllKnown :=
  fun texts => inferInstanceAs (Decidable (∀ text ∈ texts, _))

@[simp] theorem allKnown_nil : AllKnown [] := by
  simp [AllKnown]

@[simp] theorem allKnown_cons {text : String} {texts : List String} :
    AllKnown (text :: texts) ↔ LinksKnown text ∧ AllKnown texts := by
  simp [AllKnown]

@[simp] theorem allKnown_append {texts texts' : List String} :
    AllKnown (texts ++ texts') ↔ AllKnown texts ∧ AllKnown texts' := by
  simp [AllKnown, or_imp, forall_and]

@[simp] theorem allKnown_flatMap {f : α → List String} {xs : List α} :
    AllKnown (xs.flatMap f) ↔ ∀ x ∈ xs, AllKnown (f x) := by
  simp only [AllKnown, List.mem_flatMap]
  constructor
  · intro known x isMember text inside
    exact known text ⟨x, isMember, inside⟩
  · rintro known text ⟨x, isMember, inside⟩
    exact known x isMember text inside

@[simp] theorem allKnown_map {f : α → String} {xs : List α} :
    AllKnown (xs.map f) ↔ ∀ x ∈ xs, LinksKnown (f x) := by
  simp [AllKnown]

/-! ## The steps -/

/-- The error is a link to an operator that does not exist. -/
def IsUnknownOperator (e : SynthesisError) : Prop :=
  ∃ context reference, e = .unknownOperatorSuffix context reference

/-- The step only reads the schema, and it succeeds exactly under the condition. -/
structure FromSchema (step : Synth α) (condition : Prop) : Prop where
  succeeds : SucceedsIff step condition
  uses : Uses step [] []
  fails : FailsOnly step IsUnknownOperator

namespace FromSchema

theorem congr {step : Synth α} {p q : Prop} (reads : FromSchema step p) (same : p ↔ q) :
    FromSchema step q :=
  ⟨reads.succeeds.congr same, reads.uses, reads.fails⟩

theorem pure (x : α) : FromSchema (Pure.pure x) True :=
  ⟨.pure x, .pure x, .pure x⟩

theorem note (advisory : Advisory) : FromSchema (note advisory) True :=
  ⟨.note advisory, .note advisory, .note advisory⟩

theorem bind {step : Synth α} {next : α → Synth β} {p q : Prop} (first : FromSchema step p)
    (second : ∀ x, FromSchema (next x) q) : FromSchema (step >>= next) (p ∧ q) :=
  ⟨first.succeeds.bind fun x => (second x).succeeds, first.uses.bind fun x => (second x).uses,
    first.fails.bind fun x => (second x).fails⟩

theorem map {step : Synth α} {p : Prop} (f : α → β) (reads : FromSchema step p) :
    FromSchema (f <$> step) p :=
  ⟨reads.succeeds.map f, reads.uses.map f, reads.fails.map f⟩

theorem andThen {step : Synth α} {next : α → Synth β} {p : Prop} (first : FromSchema step p)
    (second : ∀ x, FromSchema (next x) True) : FromSchema (step >>= next) p :=
  (first.bind second).congr (and_iff_left trivial)

theorem each {step : α → Synth β} {xs : List α} {p : α → Prop}
    (reads : ∀ x ∈ xs, FromSchema (step x) (p x)) :
    FromSchema (each step xs) (∀ x ∈ xs, p x) where
  succeeds := .each fun x isMember => (reads x isMember).succeeds
  uses := by
    have uses := Uses.each fun x isMember => (reads x isMember).uses
    rwa [List.flatMap_eq_nil_iff.2 fun _ _ => rfl, List.flatMap_eq_nil_iff.2 fun _ _ => rfl] at uses
  fails := .each fun x isMember => (reads x isMember).fails

theorem eachInOrder [Schema.Ordered α] {step : α → Synth β} {xs : List α} {p : α → Prop}
    (reads : ∀ x ∈ xs, FromSchema (step x) (p x)) :
    FromSchema (Synth.each step (Schema.inOrder xs)) (∀ x ∈ xs, p x) :=
  (each fun x isMember => reads x (Schema.mem_inOrder.1 isMember)).congr (by simp)

end FromSchema

/-! ## Documentation -/

variable (ctx : Context)

theorem unresolved_fromSchema (context reference : String) :
    FromSchema (unresolved ctx context reference) True :=
  (FromSchema.note _).andThen fun _ => .pure _

theorem resolve_fromSchema (context reference : String) :
    FromSchema (resolve ctx context reference) True := by
  rw [resolve]
  split
  · exact .pure _
  · exact unresolved_fromSchema ctx context reference

/-- A target fails only as an operator that does not exist. -/
theorem resolveTarget_fromSchema (context : String) (target : List Char) :
    FromSchema (resolveTarget ctx context target) (Target.of target ≠ .unknownOperator) := by
  rw [resolveTarget]
  cases Target.of target with
  | address => exact (FromSchema.pure _).congr (by simp)
  | reference => exact (resolve_fromSchema ctx context _).congr (by simp)
  | operator container fragment =>
    refine FromSchema.congr (p := True) ?_ (by simp)
    dsimp only
    split
    · exact unresolved_fromSchema ctx context _
    · exact .pure _
  | unknownOperator =>
    refine ⟨(SucceedsIff.throw _).congr (by simp), .throw _, .throw ⟨context, _, rfl⟩⟩

theorem renderPiece_fromSchema (context : String) (piece : Piece) :
    FromSchema (renderPiece ctx context piece)
      (∀ link, piece = .link link → linkTarget link ≠ .unknownOperator) := by
  cases piece with
  | char c => exact (FromSchema.pure _).congr (by simp)
  | link link =>
    refine FromSchema.congr ?_ (p := linkTarget link ≠ .unknownOperator) (by simp)
    exact (resolveTarget_fromSchema ctx context _).andThen fun _ => .pure _

/-- A text is rendered if and only if its links are known. -/
theorem renderLinks_fromSchema (context text : String) :
    FromSchema (renderLinks ctx context text) (LinksKnown text) := by
  have pieces : FromSchema (each (renderPiece ctx context) (Text.pieces text.toList)) _ :=
    .each fun piece _ => renderPiece_fromSchema ctx context piece
  refine (pieces.andThen fun parts => .pure (String.join parts)).congr ?_
  -- Only the pieces that are links carry a condition.
  simp only [LinksKnown, Text.mem_links]
  constructor
  · intro known link isMember
    exact known _ isMember link rfl
  · rintro known _ isMember link rfl
    exact known link isMember

theorem documentation_fromSchema (context : String) (source : Documentation) :
    FromSchema (documentation ctx context source)
      (AllKnown (source.description :: source.notes)) := by
  have description := renderLinks_fromSchema ctx context source.description
  have notes : FromSchema (each (renderLinks ctx context) source.notes) _ :=
    .each fun note _ => renderLinks_fromSchema ctx context note
  refine (description.bind fun _ => notes.andThen fun _ => ?_).congr (by simp [AllKnown])
  cases source.see with
  | some reference =>
    exact ((resolve_fromSchema ctx context reference).map some).andThen fun _ => .pure _
  | none => exact (FromSchema.pure none).andThen fun _ => .pure _

theorem describe_fromSchema (context description : String) :
    FromSchema (describe ctx context description) (LinksKnown description) :=
  (documentation_fromSchema ctx context { description }).congr (by simp)

theorem describeEntity_fromSchema (name description : String) (notes examples : List String) :
    FromSchema (describeEntity ctx name description notes examples)
      (AllKnown (description :: notes)) :=
  documentation_fromSchema ctx name _

/-! ## Types -/

theorem mapTypes_eq_each (context : String) (types : List TypeExpr) :
    mapTypes ctx context types = each (mapType ctx context) types := by
  induction types with
  | nil => rw [mapTypes, each_nil]
  | cons type types ih => rw [mapTypes, ih, each_cons]

theorem parameterSteps_eq_map (context : String) (parameters : List Parameter) :
    parameterSteps ctx context parameters =
      parameters.map fun p => ⟨Schema.Ordered.order p, parameterProperty ctx context p⟩ := by
  induction parameters with
  | nil => rw [parameterSteps, List.map_nil]
  | cons p parameters ih =>
    rw [parameterSteps, ih]
    rfl

theorem parameterMembers_eq_each (context : String) (parameters : List Parameter) :
    parameterMembers ctx context parameters =
      each (parameterProperty ctx context) (Schema.inOrder parameters) := by
  rw [parameterMembers, parameterSteps_eq_map, inOrder_placed]

theorem runs_parameterProperty {context : String} {p : Parameter} {member : Member}
    {s s' : Session} (runs : Runs (parameterProperty ctx context p) s member s') :
    ∃ ty doc t, Runs (mapType ctx (context ++ "." ++ p.name) p.type) s ty t ∧
      Runs (describe ctx (context ++ "." ++ p.name) p.description) t doc s' ∧
      member = .property p.name ty p.optional false doc := by
  obtain ⟨name, order, description, type, optional⟩ := p
  rw [parameterProperty] at runs
  obtain ⟨ty, t, mapped, runs⟩ := runs_bind.1 runs
  obtain ⟨doc, t', described, runs⟩ := runs_bind.1 runs
  obtain ⟨rfl, rfl⟩ := runs_pure.1 runs
  exact ⟨ty, doc, t, mapped, described, rfl⟩

theorem dictionaryType_fromSchema (context : String) (key : TypeExpr) (keyType valueType : Ty) :
    FromSchema (dictionaryType ctx context key keyType valueType) True := by
  rw [dictionaryType]
  split
  · exact .pure _
  · exact (FromSchema.note _).andThen fun _ => .pure _

theorem mapArguments_fromSchema (context : String) (number : Nat) (types : List TypeExpr)
    {p : TypeExpr → Prop} (maps : ∀ t ∈ types, FromSchema (mapType ctx context t) (p t)) :
    FromSchema (mapArguments ctx context number types) (∀ t ∈ types, p t) := by
  induction types generalizing number with
  | nil =>
    rw [mapArguments]
    exact (FromSchema.pure _).congr (by simp)
  | cons type types ih =>
    rw [mapArguments]
    have first := maps type List.mem_cons_self
    have others := ih (number + 1) fun t isMember => maps t (List.mem_cons_of_mem type isMember)
    exact (first.bind fun _ => others.andThen fun _ => .pure _).congr (by simp)

theorem parameterProperty_fromSchema (context : String) (parameter : Parameter)
    (maps : ∀ inner,
      FromSchema (mapType ctx inner parameter.type) (AllKnown parameter.type.remarks)) :
    FromSchema (parameterProperty ctx context parameter) (AllKnown parameter.remarks) := by
  obtain ⟨name, order, description, type, optional⟩ := parameter
  rw [parameterProperty]
  refine ((maps _).bind fun _ => (describe_fromSchema ctx _ description).andThen fun _ =>
    .pure _).congr ?_
  simp [Schema.Parameter.remarks]

/-- A type can be mapped exactly when the links in its remarks are known. -/
theorem mapType_fromSchema (context : String) (type : TypeExpr) :
    FromSchema (mapType ctx context type) (AllKnown type.remarks) := by
  -- The context names the way to the type, so it changes from a type to those inside it.
  induction type using TypeExpr.induct generalizing context with
  | named name =>
    rw [mapType]
    exact (FromSchema.pure _).congr (by simp [TypeExpr.remarks])
  | array value ih =>
    rw [mapType, TypeExpr.remarks]
    exact (ih context).andThen fun _ => .pure _
  | dictionary key value ihKey ihValue =>
    rw [mapType, TypeExpr.remarks, allKnown_append]
    exact (ihKey context).bind fun _ => (ihValue context).andThen fun _ =>
      dictionaryType_fromSchema ctx context key _ _
  | variant options ih =>
    rw [mapType, TypeExpr.remarks, TypeExpr.listRemarks_eq_flatMap, allKnown_flatMap,
      mapTypes_eq_each]
    exact (FromSchema.each fun t isMember => ih t isMember context).andThen fun _ => .pure _
  | function parameters ih =>
    rw [mapType, TypeExpr.remarks, TypeExpr.listRemarks_eq_flatMap, allKnown_flatMap]
    exact (mapArguments_fromSchema ctx context 1 parameters fun t isMember =>
      ih t isMember context).andThen fun _ => .pure _
  | lazy value ih =>
    rw [mapType, TypeExpr.remarks]
    exact (ih context).andThen fun _ => .pure _
  | customTable key value ihKey ihValue =>
    rw [mapType, TypeExpr.remarks, allKnown_append]
    exact (ihKey context).bind fun _ => (ihValue context).andThen fun _ => .pure _
  | table parameters groups groupDescription ih =>
    -- The groups of an inline table are dropped, and so are their remarks.
    rw [mapType, mapShape, TypeExpr.remarks, Schema.TableShape.remarks,
      Parameter.listRemarks_eq_flatMap, allKnown_flatMap, parameterSteps_eq_map, inOrder_placed]
    exact (FromSchema.eachInOrder fun p isMember =>
      parameterProperty_fromSchema ctx context p fun inner => ih p isMember inner).andThen
        fun _ => .pure _

theorem parameterMembers_fromSchema (context : String) (parameters : List Parameter) :
    FromSchema (parameterMembers ctx context parameters)
      (AllKnown (parameters.flatMap Parameter.remarks)) := by
  rw [parameterMembers_eq_each, allKnown_flatMap]
  exact .eachInOrder fun p _ =>
    parameterProperty_fromSchema ctx context p fun inner => mapType_fromSchema ctx inner p.type

/-! ## Steps that render remarks

Which remarks the step of a larger part of the schema renders depends on the part. From here on it
is enough to know that it renders no others than those of the part. -/

/-- The step only reads the schema, and it succeeds if the links in the remarks are known. -/
structure Renders (step : Synth α) (remarks : List String) : Prop where
  succeeds : AllKnown remarks → SucceedsIff step True
  uses : Uses step [] []
  fails : FailsOnly step IsUnknownOperator

theorem FromSchema.renders {step : Synth α} {p : Prop} {remarks : List String}
    (reads : FromSchema step p) (enough : AllKnown remarks → p) : Renders step remarks where
  succeeds known := reads.succeeds.congr (iff_of_true (enough known) trivial)
  uses := reads.uses
  fails := reads.fails

namespace Renders

variable {remarks remarks' : List String}

theorem fromSchema {step : Synth α} (renders : Renders step remarks) (known : AllKnown remarks) :
    FromSchema step True :=
  ⟨renders.succeeds known, renders.uses, renders.fails⟩

theorem mono {step : Synth α} (renders : Renders step remarks)
    (more : AllKnown remarks' → AllKnown remarks) : Renders step remarks' :=
  ⟨fun known => renders.succeeds (more known), renders.uses, renders.fails⟩

theorem pure (x : α) : Renders (Pure.pure x) remarks :=
  (FromSchema.pure x).renders fun _ => trivial

theorem bind {step : Synth α} {next : α → Synth β} (first : Renders step remarks)
    (second : ∀ x, Renders (next x) remarks) : Renders (step >>= next) remarks where
  succeeds known := ((first.fromSchema known).andThen fun x =>
    (second x).fromSchema known).succeeds
  uses := first.uses.bind fun x => (second x).uses
  fails := first.fails.bind fun x => (second x).fails

theorem map {step : Synth α} (f : α → β) (renders : Renders step remarks) :
    Renders (f <$> step) remarks :=
  ⟨fun known => (renders.succeeds known).map f, renders.uses.map f, renders.fails.map f⟩

theorem each {step : α → Synth β} {xs : List α}
    (renders : ∀ x ∈ xs, Renders (step x) remarks) : Renders (each step xs) remarks := by
  induction xs with
  | nil => exact pure []
  | cons x xs ih =>
    have first := renders x List.mem_cons_self
    have others := ih fun y isMember => renders y (List.mem_cons_of_mem x isMember)
    exact first.bind fun _ => others.bind fun _ => pure _

end Renders

theorem mapType_renders (context : String) (type : TypeExpr) :
    Renders (mapType ctx context type) type.remarks :=
  (mapType_fromSchema ctx context type).renders id

theorem parameterMembers_renders (context : String) (parameters : List Parameter) :
    Renders (parameterMembers ctx context parameters) (parameters.flatMap Parameter.remarks) :=
  (parameterMembers_fromSchema ctx context parameters).renders id

/-! ### Tables with variants -/

theorem allKnown_shared {parameters : List Parameter} {groups : List ParameterGroup}
    (known : AllKnown (Schema.tableRemarks parameters groups)) :
    AllKnown (parameters.flatMap Parameter.remarks) :=
  (allKnown_append.1 known).1

theorem allKnown_group {parameters : List Parameter} {groups : List ParameterGroup}
    (known : AllKnown (Schema.tableRemarks parameters groups)) {group : ParameterGroup}
    (isMember : group ∈ groups) : AllKnown group.remarks :=
  allKnown_flatMap.1 (allKnown_append.1 known).2 group isMember

theorem variantBase_renders (table : VariantTable) :
    Renders (variantBase ctx table) (table.parameters.flatMap Parameter.remarks) := by
  refine Renders.bind ?_ fun _ => .pure _
  refine (parameterMembers_renders ctx table.name table.baseParameters).mono ?_
  simp only [allKnown_flatMap, VariantTable.baseParameters, List.mem_filter]
  exact fun known p isMember => known p isMember.1

theorem variantGroup_renders (table : VariantTable) (group : ParameterGroup) :
    Renders (variantGroup ctx table group) group.remarks :=
  (parameterMembers_renders ctx _ group.parameters).bind fun _ => .pure _

theorem expandVariants_renders (table : VariantTable) (doc : Option String) :
    Renders (expandVariants ctx table doc) (Schema.tableRemarks table.parameters table.groups) := by
  refine Renders.bind ((variantBase_renders ctx table).mono allKnown_shared) fun _ =>
    Renders.bind (.each fun group isMember => (variantGroup_renders ctx table group).mono ?_)
      fun _ => .pure _
  exact fun known => allKnown_group known (Schema.mem_inOrder.1 isMember)

/-! ### Signatures -/

theorem positionalParamsFrom_renders (context : String) (last : Option Nat) (index : Nat)
    (parameters : List Parameter) :
    Renders (positionalParamsFrom ctx context last index parameters)
      (parameters.flatMap Parameter.remarks) := by
  induction parameters generalizing index with
  | nil =>
    rw [positionalParamsFrom]
    exact .pure _
  | cons parameter rest ih =>
    rw [positionalParamsFrom, List.flatMap_cons]
    refine Renders.bind ((mapType_renders ctx _ parameter.type).mono ?_) fun ty =>
      Renders.bind ((ih _).mono ?_) fun _ => .pure _
    · simp only [Parameter.remarks_eq, allKnown_append]
      exact fun known => known.1.1
    · exact fun known => (allKnown_append.1 known).2

theorem positionalParams_renders (context : String) (parameters : List Parameter) :
    Renders (positionalParams ctx context parameters) (parameters.flatMap Parameter.remarks) :=
  (positionalParamsFrom_renders ctx context _ 0 (Schema.inOrder parameters)).mono (by simp)

theorem methodParams_renders (className : String) (method : Schema.Method) :
    Renders (methodParams ctx className method)
      (Schema.tableRemarks method.parameters method.groups) := by
  rw [methodParams]
  split
  · refine Renders.bind ?_ fun _ => .pure _
    rw [tableParam]
    split
    · exact ((parameterMembers_renders ctx _ _).mono allKnown_shared).bind fun _ => .pure _
    · exact (expandVariants_renders ctx _ none).bind fun _ => .pure _
  · exact ((positionalParams_renders ctx _ _).mono allKnown_shared).bind fun _ => .pure _

theorem variadicParams_renders (context : String) (type : Option TypeExpr) :
    Renders (variadicParams ctx context type) (type.toList.flatMap TypeExpr.remarks) := by
  cases type with
  | none => exact .pure _
  | some type =>
    refine ((mapType_renders ctx context type).bind fun _ => .pure _).mono ?_
    simp

theorem returnType_renders (context : String) (values : List Schema.ReturnValue) :
    Renders (returnType ctx context values) (values.flatMap (·.type.remarks)) := by
  refine Renders.bind (.each fun value isMember => ?_) fun _ => .pure _
  refine ((mapType_renders ctx context value.type).bind fun _ => .pure _).mono ?_
  simp only [allKnown_flatMap]
  exact fun known => known value (Schema.mem_inOrder.1 isMember)

theorem signature_renders (className : String) (method : Schema.Method) :
    Renders (signature ctx className method) method.remarks := by
  refine ((methodParams_renders ctx className method).mono ?_).bind fun _ =>
    ((variadicParams_renders ctx _ method.variadicType).mono ?_).bind fun _ =>
      ((returnType_renders ctx _ method.returnValues).mono ?_).bind fun _ => .pure _
  -- Each of the three steps renders one part of the remarks of the method.
  all_goals
    simp only [Schema.Method.remarks, allKnown_append]
    rintro ⟨⟨⟨_, _⟩, _⟩, _⟩
    assumption

theorem methodDoc_renders (context : String) (method : Schema.Method) :
    Renders (methodDoc ctx context method) method.remarks := by
  refine (documentation_fromSchema ctx context _).renders ?_
  simp only [Schema.Method.remarks, allKnown_append, allKnown_cons]
  rintro ⟨⟨⟨known, _⟩, _⟩, _⟩
  exact known

theorem callMember_renders (className : String) (call : Schema.Method) :
    Renders (callMember ctx className call) call.remarks :=
  (methodDoc_renders ctx _ call).bind fun _ =>
    (signature_renders ctx className call).bind fun _ => .pure _

/-! ### Members and aliases -/

theorem synthesizeAttribute_renders (entity : String) (attr : Schema.Attribute) :
    Renders (synthesizeAttribute ctx entity attr) attr.remarks := by
  refine ((mapType_renders ctx _ attr.type).mono ?_).bind fun ty => ?_
  · simp only [Schema.Attribute.remarks, allKnown_append]
    exact And.right
  · split
    · exact .pure _
    · exact .pure _

theorem attributeDoc_renders (context : String) (attr : Schema.Attribute) :
    Renders
      (documentation ctx context
        { description := attr.description, notes := attr.notes, examples := attr.examples })
      attr.remarks := by
  refine (documentation_fromSchema ctx context _).renders ?_
  simp only [Schema.Attribute.remarks, allKnown_append]
  exact And.left

theorem synthesizeParameter_renders (entity : String) (parameter : Parameter) :
    Renders (synthesizeParameter ctx entity parameter) parameter.remarks := by
  refine ((mapType_renders ctx _ parameter.type).mono ?_).bind fun _ => .pure _
  simp only [Parameter.remarks_eq, allKnown_append]
  exact And.left

theorem parameterDoc_renders (context : String) (parameter : Parameter) :
    Renders (describe ctx context parameter.description) parameter.remarks := by
  refine (describe_fromSchema ctx context parameter.description).renders ?_
  simp only [Parameter.remarks_eq, allKnown_append, allKnown_cons]
  rintro ⟨_, known, _⟩
  exact known

theorem synthesizeLength_renders (context : String) (length : Schema.Attribute)
    (arrayLike : Bool) :
    Renders (synthesizeLength ctx context length arrayLike) length.remarks := by
  refine ((mapType_renders ctx context length.type).mono ?_).bind fun _ => .pure _
  simp only [Schema.Attribute.remarks, allKnown_append]
  exact And.right

theorem unionType_renders (name : String) (options : List Schema.UnionOption) :
    Renders (unionType ctx name options) (options.flatMap (·.type.remarks)) := by
  refine Renders.bind (.each fun option isMember => ?_) fun _ => .pure _
  have known : AllKnown (options.flatMap (·.type.remarks)) → AllKnown option.type.remarks :=
    fun known => allKnown_flatMap.1 known option (Schema.mem_inOrder.1 isMember)
  rw [unionOptionTypes]
  split
  · exact ((mapType_renders ctx name option.type).mono known).bind fun _ => .pure _
  · exact .pure _

theorem fieldAndElement_renders (name : String) (last : Option Nat) (index : Nat)
    (parameter : Parameter) :
    Renders (fieldAndElement ctx name last index parameter) parameter.remarks := by
  refine ((mapType_renders ctx _ parameter.type).mono ?_).bind fun _ =>
    (parameterDoc_renders ctx _ parameter).bind fun _ => .pure _
  simp only [Parameter.remarks_eq, allKnown_append]
  exact And.left

theorem fieldsAndElements_renders (name : String) (last : Option Nat) (index : Nat)
    (parameters : List Parameter) :
    Renders (fieldsAndElements ctx name last index parameters)
      (parameters.flatMap Parameter.remarks) := by
  induction parameters generalizing index with
  | nil =>
    rw [fieldsAndElements]
    exact .pure _
  | cons parameter rest ih =>
    rw [fieldsAndElements, List.flatMap_cons]
    refine ((fieldAndElement_renders ctx name last index parameter).mono ?_).bind fun _ =>
      ((ih _).mono ?_).bind fun _ => .pure _
    · exact fun known => (allKnown_append.1 known).1
    · exact fun known => (allKnown_append.1 known).2

theorem tableOrArrayType_renders (name : String) (parameters : List Parameter) :
    Renders (tableOrArrayType ctx name parameters) (parameters.flatMap Parameter.remarks) := by
  refine ((fieldsAndElements_renders ctx name _ 0 (Schema.inOrder parameters)).mono ?_).bind
    fun _ => .pure _
  simp

end Synth

end Typings

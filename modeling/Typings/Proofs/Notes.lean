import Mathlib.Data.List.Flatten
import Typings.Proofs.ConstantTree

/-! # What steps note

A step only ever appends to the advisories of a run. What it appends says which definitions are
missing, and for a step that reads remarks without links it never says that a link is unresolved.

* `Advisory.isGap`, `Advisory.isUnresolvedLink`: the two kinds of advisories in question.
* `Synth.Notes`: the steps that append exactly the given gaps, and no unresolved link unless there
  is a link inside the remarks.
* `Synth.documentation_notes`: what a comment looks up apart from the links inside its parts.
* `Synth.mapType_notes`, `Synth.mergeAttribute_notes`, `Synth.mergeMethod_notes`: types and members
  have no gaps.
-/

namespace Typings

open Schema (Attribute Method NamedOption Parameter ParameterGroup TypeExpr)
open Text (Documentation Piece)

/-! ## Advisories -/

/-- Whether the advisory is on a definition that is missing. -/
def Advisory.isGap : Advisory → Bool
  | .missingBuiltinDefinition _ => true
  | .missingConstantDefinition _ => true
  | .missingConceptDefinition _ => true
  | .unresolvedLink _ _ => false
  | .nonIndexableKey _ _ => false
  | .missingIndexShape _ => false

/-- Whether the advisory is on a link that leads nowhere. -/
def Advisory.isUnresolvedLink : Advisory → Bool
  | .unresolvedLink _ _ => true
  | .missingBuiltinDefinition _ => false
  | .missingConstantDefinition _ => false
  | .missingConceptDefinition _ => false
  | .nonIndexableKey _ _ => false
  | .missingIndexShape _ => false

/-- There is no link inside the texts. -/
def NoLinks (texts : List String) : Prop :=
  ∀ text ∈ texts, Text.links text = []

instance : DecidablePred NoLinks :=
  fun texts => inferInstanceAs (Decidable (∀ text ∈ texts, _))

namespace Synth

variable {α β : Type}

/-! ## Steps with what they note -/

/-- When it succeeds, the step appends to the advisories. The definitions that it misses are the
gaps, and if there is no link inside the remarks, it finds all that it looks up. -/
def Notes (step : Synth α) (remarks : List String) (gaps : List Advisory) : Prop :=
  ∀ s x s', Runs step s x s' → ∃ added, s'.advisories = s.advisories ++ added ∧
    added.filter Advisory.isGap = gaps ∧
    (NoLinks remarks → ∀ advisory ∈ added, ¬ advisory.isUnresolvedLink)

namespace Notes

variable {remarks remarks' : List String} {gaps gaps' : List Advisory}

theorem mono {step : Synth α} (notes : Notes step remarks gaps) (more : remarks ⊆ remarks') :
    Notes step remarks' gaps := by
  intro s x s' runs
  obtain ⟨added, appended, sameGaps, found⟩ := notes s x s' runs
  exact ⟨added, appended, sameGaps, fun plain => found fun text inside => plain text (more inside)⟩

/-- What is said of the remarks of a part holds for those of the whole. -/
theorem part {step : Synth α} {parts : List β} {partRemarks : β → List String} {x : β}
    (isMember : x ∈ parts) (notes : Notes step (partRemarks x) gaps) :
    Notes step (parts.flatMap partRemarks) gaps :=
  notes.mono fun _ inside => List.mem_flatMap.2 ⟨x, isMember, inside⟩

theorem of_same {step : Synth α}
    (same : ∀ s x s', Runs step s x s' → s'.advisories = s.advisories) :
    Notes step remarks [] := by
  intro s x s' runs
  exact ⟨[], by rw [same s x s' runs, List.append_nil], rfl, by simp⟩

theorem pure (x : α) : Notes (Pure.pure x) remarks [] :=
  of_same fun _ _ _ runs => by rw [(runs_pure.1 runs).2]

theorem throw (e : SynthesisError) : Notes (throw e : Synth α) remarks gaps :=
  fun _ _ _ runs => (not_runs_throw runs).elim

theorem get : Notes (get : Synth Session) remarks [] :=
  of_same fun _ _ _ runs => by rw [(runs_get.1 runs).2]

theorem use (entity : String) : Notes (use entity) remarks [] :=
  of_same fun _ _ _ runs => by rw [← runs_use.1 runs, Session.use]

theorem useMember (entity member : String) : Notes (useMember entity member) remarks [] :=
  of_same fun _ _ _ runs => by rw [← runs_useMember.1 runs, Session.useMember]

theorem note {advisory : Advisory} (holds : advisory.isUnresolvedLink → ¬ NoLinks remarks) :
    Notes (note advisory) remarks ([advisory].filter Advisory.isGap) := by
  intro s x s' runs
  obtain rfl := runs_note.1 runs
  refine ⟨[advisory], rfl, rfl, fun plain a isMember => ?_⟩
  obtain rfl := List.mem_singleton.1 isMember
  exact fun unresolved => holds unresolved plain

theorem bind_of_runs {step : Synth α} {next : α → Synth β} (first : Notes step remarks gaps)
    (second : ∀ s x s', Runs step s x s' → Notes (next x) remarks gaps') :
    Notes (step >>= next) remarks (gaps ++ gaps') := by
  intro s y s'' runs
  obtain ⟨x, s', runs, continues⟩ := runs_bind.1 runs
  -- What the second step appends stands behind what the first one appended.
  obtain ⟨added, appended, sameGaps, found⟩ := first s x s' runs
  obtain ⟨added', appended', sameGaps', found'⟩ := second s x s' runs s' y s'' continues
  refine ⟨added ++ added', ?_, ?_, fun plain advisory isMember => ?_⟩
  · rw [appended', appended, List.append_assoc]
  · rw [List.filter_append, sameGaps, sameGaps']
  · rcases List.mem_append.1 isMember with isMember | isMember
    · exact found plain advisory isMember
    · exact found' plain advisory isMember

theorem bind {step : Synth α} {next : α → Synth β} (first : Notes step remarks gaps)
    (second : ∀ x, Notes (next x) remarks gaps') :
    Notes (step >>= next) remarks (gaps ++ gaps') :=
  first.bind_of_runs fun _ x _ _ => second x

/-- A step may follow one without gaps. -/
theorem after {step : Synth α} {next : α → Synth β} (first : Notes step remarks [])
    (second : ∀ x, Notes (next x) remarks gaps) : Notes (step >>= next) remarks gaps :=
  first.bind second

/-- A step may be followed by one without gaps. -/
theorem before {step : Synth α} {next : α → Synth β} (first : Notes step remarks gaps)
    (second : ∀ x, Notes (next x) remarks []) : Notes (step >>= next) remarks gaps := by
  have both := first.bind second
  rwa [List.append_nil] at both

theorem map {step : Synth α} (f : α → β) (notes : Notes step remarks gaps) :
    Notes (f <$> step) remarks gaps := by
  intro s y s' runs
  obtain ⟨x, runs, _⟩ := runs_map.1 runs
  exact notes s x s' runs

theorem each {step : α → Synth β} {xs : List α} {gaps : α → List Advisory}
    (notes : ∀ x ∈ xs, Notes (step x) remarks (gaps x)) :
    Notes (each step xs) remarks (xs.flatMap gaps) := by
  induction xs with
  | nil => exact pure []
  | cons x xs ih =>
    have first := notes x List.mem_cons_self
    have others := ih fun y isMember => notes y (List.mem_cons_of_mem x isMember)
    exact first.bind fun y => others.before fun ys => pure (y :: ys)

theorem each_gapless {step : α → Synth β} {xs : List α}
    (notes : ∀ x ∈ xs, Notes (step x) remarks []) : Notes (Synth.each step xs) remarks [] := by
  have all := each notes
  rwa [List.flatMap_eq_nil_iff.2 fun _ _ => rfl] at all

section InOrder

variable [Schema.Ordered α] {step : α → Synth β} {xs : List α} {partRemarks : α → List String}

theorem eachInOrder {gaps : α → List Advisory}
    (notes : ∀ x ∈ xs, Notes (step x) (partRemarks x) (gaps x)) :
    Notes (Synth.each step (Schema.inOrder xs)) (xs.flatMap partRemarks)
      ((Schema.inOrder xs).flatMap gaps) := by
  refine each fun x isMember => ?_
  have isPart := Schema.mem_inOrder.1 isMember
  exact (notes x isPart).part isPart

theorem eachInOrder_gapless (notes : ∀ x ∈ xs, Notes (step x) (partRemarks x) []) :
    Notes (Synth.each step (Schema.inOrder xs)) (xs.flatMap partRemarks) [] := by
  have all := eachInOrder notes
  rwa [List.flatMap_eq_nil_iff.2 fun _ _ => rfl] at all

end InOrder

end Notes

/-! ## Documentation -/

variable (ctx : Context) {remarks : List String}

theorem unresolved_notes (context reference : String) (linked : ¬ NoLinks remarks) :
    Notes (unresolved ctx context reference) remarks [] :=
  (Notes.note fun _ => linked).after fun _ => .pure _

/-- A reference is only noted if it leads nowhere. -/
theorem resolve_notes (context reference : String)
    (holds : NoLinks remarks → (ctx.lookup? reference).isSome) :
    Notes (resolve ctx context reference) remarks [] := by
  rw [resolve]
  cases isFound : ctx.lookup? reference with
  | some url => exact .pure url
  | none =>
    -- Where nothing is found, there is a link.
    refine unresolved_notes ctx context reference fun plain => ?_
    have found := holds plain
    rw [isFound] at found
    cases found

/-- A target comes from a link, so that there are links in the remarks. -/
theorem resolveTarget_notes (context : String) (target : List Char) (linked : ¬ NoLinks remarks) :
    Notes (resolveTarget ctx context target) remarks [] := by
  rw [resolveTarget]
  cases Target.of target with
  | address => exact .pure _
  | reference => exact resolve_notes ctx context _ fun plain => (linked plain).elim
  | operator container fragment =>
    dsimp only
    split
    · exact unresolved_notes ctx context _ linked
    · exact .pure _
  | unknownOperator => exact .throw _

/-- A piece of a text notes no more than the text. -/
theorem renderPiece_notes (context : String) {text : String} {piece : Piece}
    (isPiece : piece ∈ Text.pieces text.toList) :
    Notes (renderPiece ctx context piece) [text] [] := by
  cases piece with
  | char c => exact .pure _
  | link link =>
    -- The target of a link may be unresolved, but then the text has a link inside.
    have linked : ¬ NoLinks [text] := by
      intro plain
      have isLink := Text.mem_links.2 isPiece
      rw [plain text (List.mem_singleton_self text)] at isLink
      cases isLink
    exact (resolveTarget_notes ctx context _ linked).after fun _ => .pure _

theorem renderLinks_notes (context text : String) :
    Notes (renderLinks ctx context text) [text] [] :=
  (Notes.each_gapless fun _ isPiece => renderPiece_notes ctx context isPiece).after fun _ => .pure _

/-- The page on a subject is looked up, too, but it is found. -/
theorem documentation_notes (context : String) (source : Documentation)
    (found : ∀ reference ∈ source.see, (ctx.lookup? reference).isSome) :
    Notes (documentation ctx context source) (source.description :: source.notes) [] := by
  refine ((renderLinks_notes ctx context source.description).mono (by simp)).after fun _ =>
    (Notes.each_gapless fun note isMember =>
      (renderLinks_notes ctx context note).mono (by simp [isMember])).after fun _ => ?_
  -- Besides the links inside its parts a comment has only its page to look up.
  cases isThere : source.see with
  | some reference =>
    have resolves := resolve_notes ctx context reference
      fun _ : NoLinks (source.description :: source.notes) => found reference isThere
    exact (resolves.map some).after fun _ => .pure _
  | none => exact (Notes.pure none).after fun _ => .pure _

theorem describe_notes (context description : String) :
    Notes (describe ctx context description) [description] [] :=
  documentation_notes ctx context { description } (by simp)

theorem describeEntity_notes {name : String} (found : (ctx.lookup? name).isSome)
    (description : String) (notes examples : List String) :
    Notes (describeEntity ctx name description notes examples) (description :: notes) [] :=
  documentation_notes ctx name _ (by simpa using found)

/-! ## Types -/

theorem dictionaryType_notes (context : String) (key : TypeExpr) (keyType valueType : Ty) :
    Notes (dictionaryType ctx context key keyType valueType) remarks [] := by
  rw [dictionaryType]
  split
  · exact .pure _
  · exact (Notes.note (by simp [Advisory.isUnresolvedLink])).after fun _ => .pure _

theorem mapArguments_notes (context : String) (number : Nat) {types : List TypeExpr}
    (maps : ∀ t ∈ types, Notes (mapType ctx context t) remarks []) :
    Notes (mapArguments ctx context number types) remarks [] := by
  induction types generalizing number with
  | nil =>
    rw [mapArguments]
    exact .pure _
  | cons type types ih =>
    rw [mapArguments]
    have first := maps type List.mem_cons_self
    have others := ih (number + 1) fun t isMember => maps t (List.mem_cons_of_mem type isMember)
    exact first.after fun _ => others.after fun _ => .pure _

theorem parameterProperty_notes (context : String) (parameter : Parameter)
    (maps : ∀ inner, Notes (mapType ctx inner parameter.type) parameter.type.remarks []) :
    Notes (parameterProperty ctx context parameter) parameter.remarks [] := by
  obtain ⟨name, order, description, type, optional⟩ := parameter
  rw [parameterProperty, Parameter.remarks_eq]
  exact ((maps _).mono (by simp)).after fun _ =>
    ((describe_notes ctx _ description).mono (by simp)).after fun _ => .pure _

/-- A type has no gaps, and nothing to look up but the links inside its remarks. -/
theorem mapType_notes (context : String) (type : TypeExpr) :
    Notes (mapType ctx context type) type.remarks [] := by
  -- The context names the way to the type, so it changes from a type to those inside it.
  induction type using TypeExpr.induct generalizing context with
  | named name =>
    rw [mapType]
    exact .pure _
  | array value ih =>
    rw [mapType, TypeExpr.remarks]
    exact (ih context).after fun _ => .pure _
  | dictionary key value ihKey ihValue =>
    rw [mapType, TypeExpr.remarks]
    exact ((ihKey context).mono (by simp)).after fun _ =>
      ((ihValue context).mono (by simp)).after fun _ => dictionaryType_notes ctx context key _ _
  | variant options ih =>
    rw [mapType, mapTypes_eq_each, TypeExpr.remarks, TypeExpr.listRemarks_eq_flatMap]
    exact (Notes.each_gapless fun t isMember => (ih t isMember context).part isMember).after
      fun _ => .pure _
  | function parameters ih =>
    rw [mapType, TypeExpr.remarks, TypeExpr.listRemarks_eq_flatMap]
    exact (mapArguments_notes ctx context 1 fun t isMember =>
      (ih t isMember context).part isMember).after fun _ => .pure _
  | lazy value ih =>
    rw [mapType, TypeExpr.remarks]
    exact (ih context).after fun _ => .pure _
  | customTable key value ihKey ihValue =>
    rw [mapType, TypeExpr.remarks]
    exact ((ihKey context).mono (by simp)).after fun _ =>
      ((ihValue context).mono (by simp)).after fun _ => .pure _
  | table parameters groups groupDescription ih =>
    rw [mapType, mapShape, TypeExpr.remarks, Schema.TableShape.remarks,
      Parameter.listRemarks_eq_flatMap, parameterSteps_eq_map, inOrder_placed]
    exact (Notes.eachInOrder_gapless fun p isMember =>
      parameterProperty_notes ctx context p (ih p isMember)).after fun _ => .pure _

theorem parameterMembers_notes (context : String) (parameters : List Parameter) :
    Notes (parameterMembers ctx context parameters) (parameters.flatMap Parameter.remarks) [] := by
  rw [parameterMembers_eq_each]
  exact .eachInOrder_gapless fun p _ =>
    parameterProperty_notes ctx context p fun inner => mapType_notes ctx inner p.type

/-! ### Tables with variants -/

theorem variantBase_notes (table : VariantTable) :
    Notes (variantBase ctx table) (table.parameters.flatMap Parameter.remarks) [] := by
  refine Notes.after ?_ fun _ => .pure _
  refine (parameterMembers_notes ctx table.name table.baseParameters).mono ?_
  rw [VariantTable.baseParameters]
  exact (List.filter_sublist.flatMap _).subset

theorem expandVariants_notes (table : VariantTable) (doc : Option String) :
    Notes (expandVariants ctx table doc) (Schema.tableRemarks table.parameters table.groups)
      [] := by
  have base := variantBase_notes ctx table
  have groups : Notes (each (variantGroup ctx table) (Schema.inOrder table.groups))
      (table.groups.flatMap ParameterGroup.remarks) [] :=
    .eachInOrder_gapless fun group _ =>
      (parameterMembers_notes ctx _ group.parameters).after fun _ => .pure _
  exact (base.mono (List.subset_append_left _ _)).after fun _ =>
    (groups.mono (List.subset_append_right _ _)).after fun _ => .pure _

/-! ### Signatures -/

theorem positionalParamsFrom_notes (context : String) (last : Option Nat) (index : Nat)
    (parameters : List Parameter) :
    Notes (positionalParamsFrom ctx context last index parameters)
      (parameters.flatMap Parameter.remarks) [] := by
  induction parameters generalizing index with
  | nil =>
    rw [positionalParamsFrom]
    exact .pure _
  | cons parameter rest ih =>
    rw [positionalParamsFrom, List.flatMap_cons, Parameter.remarks_eq]
    exact ((mapType_notes ctx _ parameter.type).mono (by simp)).after fun _ =>
      ((ih _).mono (by simp)).after fun _ => .pure _

/-- By position, in a table or with variants: the remarks on the parameters are rendered. -/
theorem methodParams_notes (className : String) (method : Method) :
    Notes (methodParams ctx className method)
      (Schema.tableRemarks method.parameters method.groups) [] := by
  rw [methodParams]
  split
  next =>
    refine Notes.after ?_ fun _ => .pure _
    rw [tableParam]
    split
    · have members := parameterMembers_notes ctx (className ++ "." ++ method.name) method.parameters
      exact (members.mono (List.subset_append_left _ _)).after fun _ => .pure _
    · exact (expandVariants_notes ctx _ none).after fun _ => .pure _
  next =>
    have positional := positionalParamsFrom_notes ctx (className ++ "." ++ method.name)
      (lastPosition? (fun p => !p.optional) (Schema.inOrder method.parameters)) 0
      (Schema.inOrder method.parameters)
    refine (positional.mono ?_).after fun _ => .pure _
    intro text inside
    simp_all [Schema.tableRemarks]

theorem variadicParams_notes (context : String) (type : Option TypeExpr) :
    Notes (variadicParams ctx context type) (type.toList.flatMap TypeExpr.remarks) [] := by
  cases type with
  | none => exact .pure _
  | some type =>
    rw [Option.toList_some, List.flatMap_singleton]
    exact (mapType_notes ctx context type).after fun _ => .pure _

theorem returnType_notes (context : String) (values : List Schema.ReturnValue) :
    Notes (returnType ctx context values) (values.flatMap (·.type.remarks)) [] :=
  (Notes.eachInOrder_gapless fun value _ =>
    (mapType_notes ctx context value.type).after fun _ => .pure _).after fun _ => .pure _

/-- A signature renders the remarks in the types of parameters and return values. -/
theorem signature_notes (className : String) (method : Method) :
    Notes (signature ctx className method) method.remarks [] := by
  rw [Method.remarks]
  refine ((methodParams_notes ctx className method).mono ?_).after fun _ =>
    ((variadicParams_notes ctx _ method.variadicType).mono ?_).after fun _ =>
      ((returnType_notes ctx _ method.returnValues).mono ?_).after fun _ => .pure _
  -- Each of the three steps renders one part of the remarks of the method.
  all_goals
    intro text inside
    simp only [List.mem_append, inside, true_or, or_true]

theorem methodDoc_notes (context : String) (method : Method) :
    Notes (methodDoc ctx context method) method.remarks [] := by
  rw [Method.remarks]
  exact (documentation_notes ctx context _ (by simp)).mono (by simp)

/-! ## Members -/

theorem findOverride_notes (entity : String) (allowed : List OverrideKind) :
    Notes (findOverride ctx entity allowed) remarks [] := by
  rw [findOverride]
  split
  · exact .pure _
  · split
    · exact (Notes.use entity).after fun _ => .pure _
    · exact .throw _

/-- A step may look up an override first. -/
theorem Notes.lookup {entity : String} {allowed : List OverrideKind}
    {next : Option Override → Synth α} {gaps : List Advisory}
    (continues : Notes (next (ctx.overrides.get? entity)) remarks gaps) :
    Notes (findOverride ctx entity allowed >>= next) remarks gaps := by
  refine (findOverride_notes ctx entity allowed).bind_of_runs fun s o s' runs => ?_
  rwa [(findOverride_result runs).1]

theorem appendUnclaimed_notes (entity : String) (o : Option Override) (members : List Member) :
    Notes (appendUnclaimed entity o members) remarks [] :=
  Notes.get.after fun _ => .pure _

section Claims

variable (entity name : String) (o : Option Override) (shape : MemberShape) (doc : Option String)

theorem claimMember_notes : Notes (claimMember entity o name shape doc) remarks [] := by
  rw [claimMember]
  split
  · exact .pure _
  · split
    · exact (Notes.useMember entity name).after fun _ => .pure _
    · exact .throw _

theorem mergeMember_notes {synthesize : Synth Member} (notes : Notes synthesize remarks []) :
    Notes (mergeMember entity o name shape doc synthesize) remarks [] := by
  refine (claimMember_notes entity name o shape doc).after fun claimed => ?_
  -- A claimed member is taken as it is.
  cases claimed with
  | some member => exact .pure _
  | none => exact notes.after fun _ => .pure _

end Claims

section Members

variable (entity : String) (o : Option Override)

theorem mergeAttribute_notes (attr : Attribute) :
    Notes (mergeAttribute ctx entity o attr) attr.remarks [] := by
  have type : Notes (synthesizeAttribute ctx entity attr) attr.remarks [] := by
    refine ((mapType_notes ctx _ attr.type).mono (by simp [Attribute.remarks])).after fun ty => ?_
    split
    · exact .pure _
    · exact .pure _
  exact ((documentation_notes ctx _ _ (by simp)).mono (by simp [Attribute.remarks])).after fun _ =>
    mergeMember_notes entity _ o _ _ type

theorem mergeParameter_notes (parameter : Parameter) :
    Notes (mergeParameter ctx entity o parameter) parameter.remarks [] := by
  rw [Parameter.remarks_eq]
  exact ((describe_notes ctx _ parameter.description).mono (by simp)).after fun _ =>
    mergeMember_notes entity _ o _ _
      (((mapType_notes ctx _ parameter.type).mono (by simp)).after fun _ => .pure _)

theorem mergeParameters_notes (parameters : List Parameter) :
    Notes (mergeParameters ctx entity o parameters) (parameters.flatMap Parameter.remarks) [] :=
  .eachInOrder_gapless fun p _ => mergeParameter_notes ctx entity o p

theorem flagMember_notes (option : NamedOption) :
    Notes (flagMember ctx entity o option) [option.description] [] :=
  (describe_notes ctx _ option.description).after fun _ =>
    mergeMember_notes entity _ o _ _ (.pure _)

theorem mergeMethod_notes (method : Method) :
    Notes (mergeMethod ctx entity o method) method.remarks [] := by
  refine (methodDoc_notes ctx _ method).after fun doc =>
    (claimMember_notes entity _ o _ doc).after fun claimed => ?_
  cases claimed with
  | some member => exact .pure _
  | none => exact (signature_notes ctx entity method).after fun _ => .pure _

theorem mergeLength_notes (length : Attribute) (arrayLike : Bool) :
    Notes (mergeLength ctx entity o length arrayLike) length.remarks [] := by
  rw [Attribute.remarks]
  exact ((describe_notes ctx _ length.description).mono (by simp)).after fun _ =>
    mergeMember_notes entity _ o _ _
      (((mapType_notes ctx _ length.type).mono (by simp)).after fun _ => .pure _)

theorem callMember_notes (call : Method) :
    Notes (callMember ctx entity call) call.remarks [] :=
  (methodDoc_notes ctx _ call).after fun _ =>
    (signature_notes ctx entity call).after fun _ => .pure _

end Members

/-! ## Types of concepts -/

theorem unionType_notes (name : String) (options : List Schema.UnionOption) :
    Notes (unionType ctx name options) (options.flatMap (·.type.remarks)) [] := by
  refine (Notes.eachInOrder_gapless fun option _ => ?_).after fun _ => .pure _
  rw [unionOptionTypes]
  split
  · exact (mapType_notes ctx name option.type).after fun _ => .pure _
  · exact .pure _

theorem fieldsAndElements_notes (name : String) (last : Option Nat) (index : Nat)
    (parameters : List Parameter) :
    Notes (fieldsAndElements ctx name last index parameters)
      (parameters.flatMap Parameter.remarks) [] := by
  induction parameters generalizing index with
  | nil =>
    rw [fieldsAndElements]
    exact .pure _
  | cons parameter rest ih =>
    have first : Notes (fieldAndElement ctx name last index parameter) parameter.remarks [] := by
      rw [Parameter.remarks_eq]
      exact ((mapType_notes ctx _ parameter.type).mono (by simp)).after fun _ =>
        ((describe_notes ctx _ parameter.description).mono (by simp)).after fun _ => .pure _
    rw [fieldsAndElements, List.flatMap_cons]
    exact (first.mono (by simp)).after fun _ => ((ih _).mono (by simp)).after fun _ => .pure _

theorem tableOrArrayType_notes (name : String) (parameters : List Parameter) :
    Notes (tableOrArrayType ctx name parameters) (parameters.flatMap Parameter.remarks) [] := by
  have ordered := fieldsAndElements_notes ctx name
    (lastPosition? (fun p => !p.optional) (Schema.inOrder parameters)) 0
    (Schema.inOrder parameters)
  refine (ordered.mono fun text inside => ?_).after fun _ => .pure _
  simpa using inside

end Synth

end Typings

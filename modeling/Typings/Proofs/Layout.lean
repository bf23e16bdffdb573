import Typings.Proofs.Segments

/-! # Layout of the output

Each entity of a category has a block of declarations in the segment of the category. The blocks
stand in the order of the entities, and the last declaration of a block has the name of the entity.

* `EndsIn`, `IsSingle`, `InBlocks`: blocks, and segments that are made of them.
* `Layout`: what each segment of the output consists of.
* `generate_layout`: the output of a run consists of segments with this layout.
-/

namespace Typings

open Schema (BuiltinType Concept Document Event GlobalObject SortedFrom)

/-! ## Blocks -/

/-- The last declaration of the block has the name. -/
def EndsIn (name : String) (block : List Declaration) : Prop :=
  ∃ front last, block = front ++ [last] ∧ last.name = name

theorem EndsIn.single {decl : Declaration} {name : String} (named : decl.name = name) :
    EndsIn name [decl] :=
  ⟨[], decl, rfl, named⟩

theorem EndsIn.append {name : String} {block : List Declaration} (front : List Declaration)
    (ends : EndsIn name block) : EndsIn name (front ++ block) := by
  obtain ⟨inner, last, rfl, named⟩ := ends
  exact ⟨front ++ inner, last, by rw [List.append_assoc], named⟩

theorem EndsIn.ne_nil {name : String} {block : List Declaration} (ends : EndsIn name block) :
    block ≠ [] := by
  obtain ⟨front, last, rfl, _⟩ := ends
  simp

/-- The block is one declaration of the name. -/
def IsSingle (name : String) (block : List Declaration) : Prop :=
  ∃ decl, block = [decl] ∧ decl.name = name

theorem IsSingle.intro {decl : Declaration} {name : String} (named : decl.name = name) :
    IsSingle name [decl] :=
  ⟨decl, rfl, named⟩

theorem IsSingle.ends {name : String} {block : List Declaration} (single : IsSingle name block) :
    EndsIn name block := by
  obtain ⟨decl, rfl, named⟩ := single
  exact .single named

/-- The segment has a block for each thing of the source. The things are in ascending order, and the
    blocks in the order of the things. -/
def InBlocks {α : Type} [Schema.Ordered α] (source : List α)
    (IsBlock : α → List Declaration → Prop) (segment : List Declaration) : Prop :=
  ∃ things blocks, SortedFrom source things ∧ List.Forall₂ IsBlock things blocks ∧
    segment = blocks.flatten

namespace Synth

variable {ctx : Context} {s s' : Session}

theorem name_verbatim {o : Override} {entity : String} (doc : Option String)
    (isFound : ctx.overrides.get? entity = some o) : (verbatim o doc).name = entity := by
  rw [verbatim, Declaration.name_withDoc]
  exact OverrideStore.name_of_get? isFound

/-! ## Blocks of entities -/

theorem plainBuiltin_name {name : String} {doc : Option String} {decl : Declaration}
    (runs : Runs (plainBuiltin ctx name doc) s decl s') : decl.name = name := by
  rw [plainBuiltin] at runs
  split at runs
  · obtain ⟨rfl, _⟩ := runs_pure.1 runs
    rfl
  · obtain ⟨_, t, _, runs⟩ := runs_bind.1 runs
    obtain ⟨rfl, _⟩ := runs_pure.1 runs
    rfl

/-- Only a native builtin type without an override is left out. -/
theorem builtinDeclarations_single {builtin : BuiltinType} {block : List Declaration}
    (runs : Runs (builtinDeclarations ctx builtin) s block s') :
    if ctx.config.isNative builtin.name ∧ ctx.overrides.get? builtin.name = none then block = []
    else IsSingle builtin.name block := by
  obtain ⟨_, t, _, runs⟩ := runs_findOverride_bind runs
  cases isFound : ctx.overrides.get? builtin.name with
  | some o =>
    simp only [isFound] at runs
    obtain ⟨doc, t', _, runs⟩ := runs_bind.1 runs
    obtain ⟨rfl, _⟩ := runs_pure.1 runs
    rw [if_neg (by simp)]
    exact .intro (name_verbatim doc isFound)
  | none =>
    simp only [isFound] at runs
    split at runs
    next native =>
      rw [if_pos ⟨native, rfl⟩]
      exact (runs_pure.1 runs).1.symm
    next declared =>
      rw [if_neg fun native => declared native.1]
      obtain ⟨doc, t', _, runs⟩ := runs_bind.1 runs
      obtain ⟨decl, t'', made, runs⟩ := runs_bind.1 runs
      obtain ⟨rfl, _⟩ := runs_pure.1 runs
      exact .intro (plainBuiltin_name made)

theorem builtinDeclarations_block {builtin : BuiltinType} {block : List Declaration}
    (runs : Runs (builtinDeclarations ctx builtin) s block s') :
    if ctx.config.isNative builtin.name ∧ ctx.overrides.get? builtin.name = none then block = []
    else EndsIn builtin.name block := by
  have single := builtinDeclarations_single runs
  split at single
  next native => rwa [if_pos native]
  next declared =>
    rw [if_neg declared]
    exact single.ends

theorem eventDeclaration_name {event : Event} {decl : Declaration}
    (runs : Runs (eventDeclaration ctx event) s decl s') : decl.name = eventName event := by
  obtain ⟨o, doc, own, t, t', _, _, _, rfl⟩ := runs_eventDeclaration runs
  rfl

theorem globalDeclaration_name {object : GlobalObject} {decl : Declaration}
    (runs : Runs (globalDeclaration ctx object) s decl s') : decl.name = object.name := by
  obtain ⟨ty, t₁, _, runs⟩ := runs_bind.1 runs
  obtain ⟨doc, t₂, _, runs⟩ := runs_bind.1 runs
  obtain ⟨rfl, _⟩ := runs_pure.1 runs
  rfl

theorem classBlock_ends (name : String) (supertypes : List Ty) (members : List Member)
    (doc : Option String) (index : Option Ty) :
    EndsIn name (classBlock name supertypes members doc index) := by
  cases index with
  | some index => exact ⟨[_, _], _, rfl, rfl⟩
  | none => exact .single rfl

theorem classDeclarations_ends {c : Schema.Class} {block : List Declaration}
    (runs : Runs (classDeclarations ctx c) s block s') : EndsIn c.name block := by
  obtain ⟨o, doc, decls, own, index, t, t', t'', _, _, _, _, _, rfl⟩ :=
    runs_classDeclarations runs
  exact (classBlock_ends _ _ _ _ index).append decls

theorem markerDeclarations_ends {c : Schema.Class} {block : List Declaration}
    (runs : Runs (markerDeclarations ctx c) s block s') :
    EndsIn ctx.config.markerSupertype block := by
  obtain ⟨help, t₁, _, runs⟩ := runs_bind.1 runs
  obtain ⟨attributes, t₂, _, runs⟩ := runs_bind.1 runs
  obtain ⟨rfl, _⟩ := runs_pure.1 runs
  exact .append _ (.single rfl)

theorem expandVariants_ends {table : VariantTable} {doc : Option String}
    {block : List Declaration} (runs : Runs (expandVariants ctx table doc) s block s') :
    EndsIn table.name block := by
  obtain ⟨base, t₁, _, runs⟩ := runs_bind.1 runs
  obtain ⟨interfaces, t₂, _, runs⟩ := runs_bind.1 runs
  obtain ⟨rfl, _⟩ := runs_pure.1 runs
  exact .append _ (.single rfl)

/-! ## Blocks of concepts -/

section Concepts

variable {name : String} {doc : Option String} {block : List Declaration}

theorem proseConcept_single (runs : Runs (proseConcept ctx name doc) s block s') :
    IsSingle name block := by
  obtain ⟨_, t, _, runs⟩ := runs_findOverride_bind runs
  cases isFound : ctx.overrides.get? name with
  | some o =>
    simp only [isFound] at runs
    obtain ⟨rfl, _⟩ := runs_pure.1 runs
    exact .intro (name_verbatim doc isFound)
  | none =>
    simp only [isFound] at runs
    obtain ⟨_, t', _, runs⟩ := runs_bind.1 runs
    obtain ⟨rfl, _⟩ := runs_pure.1 runs
    exact .intro rfl

theorem aliasConcept_single {type : Synth Ty}
    (runs : Runs (aliasConcept ctx name doc type) s block s') : IsSingle name block := by
  obtain ⟨_, t, _, runs⟩ := runs_findOverride_bind runs
  cases isFound : ctx.overrides.get? name with
  | some o =>
    simp only [isFound] at runs
    obtain ⟨rfl, _⟩ := runs_pure.1 runs
    exact .intro (name_verbatim doc isFound)
  | none =>
    simp only [isFound] at runs
    obtain ⟨ty, t', _, runs⟩ := runs_bind.1 runs
    obtain ⟨rfl, _⟩ := runs_pure.1 runs
    exact .intro rfl

theorem structuralConcept_single {members : Option Override → Synth (List Member)}
    (runs : Runs (structuralConcept ctx name doc members) s block s') : IsSingle name block := by
  rcases runs_structuralConcept runs with ⟨o, isFound, _, rfl⟩ | ⟨o, own, t, _, _, rfl⟩
  · exact .intro (name_verbatim doc isFound)
  · exact .intro rfl

/-- A table with variants ends with the type that has its name. -/
theorem tableConcept_ends {concept : Concept} {shape : Schema.TableShape}
    (runs : Runs (tableConcept ctx concept shape doc) s block s') :
    EndsIn concept.name block := by
  rw [tableConcept] at runs
  split at runs
  · exact (structuralConcept_single runs).ends
  · obtain ⟨_, t, _, runs⟩ := runs_findOverride_bind runs
    cases isFound : ctx.overrides.get? concept.name with
    | some o =>
      simp only [isFound] at runs
      obtain ⟨rfl, _⟩ := runs_pure.1 runs
      exact .single (name_verbatim doc isFound)
    | none =>
      simp only [isFound] at runs
      exact expandVariants_ends runs

theorem conceptDeclarations_ends {concept : Concept}
    (runs : Runs (conceptDeclarations ctx concept) s block s') : EndsIn concept.name block := by
  obtain ⟨doc, t, _, runs⟩ := runs_bind.1 runs
  rw [documentedConcept] at runs
  cases isKind : concept.kind <;> simp only [isKind] at runs
  case prose => exact (proseConcept_single runs).ends
  case union | enumeration | tableOrArray => exact (aliasConcept_single runs).ends
  case «structure» | flag => exact (structuralConcept_single runs).ends
  case table | filter => exact tableConcept_ends runs

end Concepts

/-! ## Segments -/

/-- The block is what the step of an entity makes, and its last declaration has the name of the
    entity. -/
def IsBlock (step : Synth (List Declaration)) (name : String) (block : List Declaration) : Prop :=
  (∃ t t', Runs step t block t') ∧ EndsIn name block

/-- The block of a builtin type is empty if the type is native and has no override. -/
def IsBuiltinBlock (ctx : Context) (builtin : BuiltinType) (block : List Declaration) : Prop :=
  (∃ t t', Runs (builtinDeclarations ctx builtin) t block t') ∧
    if ctx.config.isNative builtin.name ∧ ctx.overrides.get? builtin.name = none then block = []
    else EndsIn builtin.name block

theorem IsBlock.ne_nil {step : Synth (List Declaration)} {name : String}
    {block : List Declaration} (isBlock : IsBlock step name block) : block ≠ [] :=
  isBlock.2.ne_nil

theorem IsBuiltinBlock.eq_nil_iff {builtin : BuiltinType} {block : List Declaration}
    (isBlock : IsBuiltinBlock ctx builtin block) :
    block = [] ↔ ctx.config.isNative builtin.name ∧ ctx.overrides.get? builtin.name = none := by
  obtain ⟨_, ends⟩ := isBlock
  split at ends
  next native => exact iff_of_true ends native
  next declared => exact iff_of_false ends.ne_nil declared

section Each

variable {α : Type} [Schema.Ordered α] {source : List α}
  {IsBlock : α → List Declaration → Prop}

theorem inBlocks_of_each {step : α → Synth (List Declaration)} {blocks : List (List Declaration)}
    (runs : Runs (each step (Schema.inOrder source)) s blocks s')
    (isBlock : ∀ x t block t', Runs (step x) t block t' → IsBlock x block) :
    InBlocks source IsBlock blocks.flatten := by
  refine ⟨_, blocks, Schema.inOrder_sortedFrom source, runs.forall₂.imp ?_, rfl⟩
  rintro x block ⟨t, t', made⟩
  exact isBlock x t block t' made

theorem inBlocks_of_each_single {step : α → Synth Declaration} {segment : List Declaration}
    (runs : Runs (each step (Schema.inOrder source)) s segment s')
    (isBlock : ∀ x t decl t', Runs (step x) t decl t' → IsBlock x [decl]) :
    InBlocks source IsBlock segment := by
  refine ⟨_, segment.map fun decl => [decl], Schema.inOrder_sortedFrom source, ?_, ?_⟩
  · rw [List.forall₂_map_right_iff]
    refine runs.forall₂.imp ?_
    rintro x decl ⟨t, t', made⟩
    exact isBlock x t decl t' made
  · rw [← List.flatMap_def, List.flatMap_singleton']

end Each

theorem builtins_blocks {segment : List Declaration} (runs : Runs (builtins ctx) s segment s') :
    InBlocks ctx.document.builtinTypes (IsBuiltinBlock ctx) segment := by
  obtain ⟨blocks, t, made, continues⟩ := runs_bind.1 runs
  obtain ⟨rfl, _⟩ := runs_pure.1 continues
  exact inBlocks_of_each made fun builtin u block u' made =>
    ⟨⟨u, u', made⟩, builtinDeclarations_block made⟩

theorem events_blocks {segment : List Declaration} (runs : Runs (events ctx) s segment s') :
    InBlocks ctx.document.events
      (fun event => IsBlock (List.singleton <$> eventDeclaration ctx event) (eventName event))
      segment :=
  inBlocks_of_each_single runs fun _ u decl u' made =>
    ⟨⟨u, u', runs_map.2 ⟨decl, made, rfl⟩⟩, .single (eventDeclaration_name made)⟩

theorem globals_blocks {segment : List Declaration} (runs : Runs (globals ctx) s segment s') :
    InBlocks ctx.document.globalObjects
      (fun object => IsBlock (List.singleton <$> globalDeclaration ctx object) object.name)
      segment :=
  inBlocks_of_each_single runs fun _ u decl u' made =>
    ⟨⟨u, u', runs_map.2 ⟨decl, made, rfl⟩⟩, .single (globalDeclaration_name made)⟩

theorem concepts_blocks {segment : List Declaration} (runs : Runs (concepts ctx) s segment s') :
    InBlocks ctx.document.concepts
      (fun concept => IsBlock (conceptDeclarations ctx concept) concept.name) segment := by
  obtain ⟨blocks, t, made, continues⟩ := runs_bind.1 runs
  obtain ⟨rfl, _⟩ := runs_pure.1 continues
  exact inBlocks_of_each made fun concept u block u' made =>
    ⟨⟨u, u', made⟩, conceptDeclarations_ends made⟩

/-- The marker interface is made once, for the first class that extends it. -/
theorem classesFrom_marker {marker marker' : Option (List Declaration)} {cs : List Schema.Class}
    {decls : List Declaration} (runs : Runs (classesFrom ctx marker cs) s (decls, marker') s')
    (ends : ∀ block, marker = some block → EndsIn ctx.config.markerSupertype block) :
    (∀ block, marker' = some block → EndsIn ctx.config.markerSupertype block) ∧
      (marker'.isSome ↔ marker.isSome ∨ (∃ c ∈ cs, c.hasTriad) ∧
        ctx.overrides.get? ctx.config.markerSupertype = none) := by
  -- Once the marker interface is there, it is kept to the end.
  induction cs generalizing marker decls s with
  | nil =>
    obtain ⟨same, _⟩ := runs_pure.1 runs
    cases same
    exact ⟨ends, by simp⟩
  | cons c cs ih =>
    obtain ⟨marker₁, t, block, t', rest, made, _, behind, rfl⟩ := runs_classesFrom_cons ctx runs
    rw [markerAt, needsMarker, OverrideStore.contains_eq_isSome_get?] at made
    split at made
    next needed =>
      obtain ⟨block, isMade, rfl⟩ := runs_map.1 made
      obtain ⟨ends, isThere⟩ := ih behind fun _ same => by
        cases same
        exact markerDeclarations_ends isMade
      refine ⟨ends, ?_⟩
      simp_all
    next notNeeded =>
      obtain ⟨rfl, _⟩ := runs_pure.1 made
      obtain ⟨ends, isThere⟩ := ih behind ends
      refine ⟨ends, isThere.trans ?_⟩
      cases marker with
      | some made => simp
      | none =>
        cases isFound : ctx.overrides.get? ctx.config.markerSupertype with
        | some o => simp
        | none =>
          have notTriad : ¬ c.hasTriad := by simpa [isFound] using notNeeded
          simp [notTriad]

end Synth

/-! ## The layout -/

open Synth in
/-- What the segments of the output consist of. -/
structure Layout (ctx : Context) (made : Segments) : Prop where
  builtins : InBlocks ctx.document.builtinTypes (IsBuiltinBlock ctx) made.builtins
  defines :
    if ctx.document.defines = [] then made.defines = []
    else ∃ body, made.defines = [.nameSpace ctx.config.constantsRoot body none]
  events :
    InBlocks ctx.document.events
      (fun event =>
        IsBlock (List.singleton <$> eventDeclaration ctx event)
          (Text.pascalCase event.name ++ "Event"))
      made.events
  /-- The marker interface stands behind the blocks of the classes, if a class extends it and it has
      no override. -/
  classes : ∃ blocks marker, made.classes = blocks ++ marker ∧
    InBlocks ctx.document.classes (fun c => IsBlock (classDeclarations ctx c) c.name) blocks ∧
    if (∃ c ∈ ctx.document.classes, c.hasTriad) ∧
      ctx.overrides.get? ctx.config.markerSupertype = none
    then EndsIn ctx.config.markerSupertype marker else marker = []
  concepts :
    InBlocks ctx.document.concepts
      (fun concept => IsBlock (conceptDeclarations ctx concept) concept.name) made.concepts
  globals :
    InBlocks ctx.document.globalObjects
      (fun object => IsBlock (List.singleton <$> globalDeclaration ctx object) object.name)
      made.globals
  unmatchedOverrides : ∃ kept : List Override, kept.Sublist ctx.overrides.overrides ∧
    made.unmatchedOverrides = kept.map Override.documented

namespace Synth

variable {ctx : Context} {s s' : Session}

/-- All constants are in one namespace. -/
theorem constants_segment {segment : List Declaration} (runs : Runs (constants ctx) s segment s') :
    if ctx.document.defines = [] then segment = []
    else ∃ body, segment = [.nameSpace ctx.config.constantsRoot body none] := by
  rw [constants] at runs
  by_cases isEmpty : ctx.document.defines = []
  · rw [if_pos (List.isEmpty_iff.2 isEmpty)] at runs
    rw [if_pos isEmpty]
    exact (runs_pure.1 runs).1.symm
  · rw [if_neg fun empty => isEmpty (List.isEmpty_iff.1 empty)] at runs
    rw [if_neg isEmpty]
    obtain ⟨body, t, _, runs⟩ := runs_bind.1 runs
    obtain ⟨rfl, _⟩ := runs_pure.1 runs
    exact ⟨_, rfl⟩

/-- Behind the classes there is the marker interface, unless there is none to be made. -/
theorem classes_segment {segment : List Declaration} (runs : Runs (classes ctx) s segment s') :
    ∃ blocks marker, segment = blocks ++ marker ∧
      InBlocks ctx.document.classes (fun c => IsBlock (classDeclarations ctx c) c.name) blocks ∧
      if (∃ c ∈ ctx.document.classes, c.hasTriad) ∧
        ctx.overrides.get? ctx.config.markerSupertype = none
      then EndsIn ctx.config.markerSupertype marker else marker = [] := by
  obtain ⟨⟨decls, marker⟩, t, made, runs⟩ := runs_bind.1 runs
  obtain ⟨rfl, _⟩ := runs_pure.1 runs
  obtain ⟨blocks, each, rfl⟩ := Runs.classes ctx made
  -- At the start there is no marker interface.
  obtain ⟨ends, isThere⟩ := classesFrom_marker made fun _ same => by cases same
  refine ⟨_, marker.getD [], rfl, ⟨_, blocks, Schema.inOrder_sortedFrom _, each.imp ?_, rfl⟩, ?_⟩
  · rintro c block ⟨u, u', runs⟩
    exact ⟨⟨u, u', runs⟩, classDeclarations_ends runs⟩
  cases marker with
  | some block =>
    rw [if_pos (by simpa using isThere)]
    exact ends block rfl
  | none =>
    rw [if_neg (by simpa using isThere)]
    rfl

/-- Every segment has the blocks of its category, in order. -/
theorem segments_layout {made : Segments} (runs : Runs (segments ctx) s made s') :
    Layout ctx made := by
  obtain ⟨t₁, t₂, t₃, t₄, t₅, builtins, constants, events, classes, concepts, globals, unmatched⟩ :=
    runs_segments ctx runs
  exact
    { builtins := builtins_blocks builtins
      defines := constants_segment constants
      events := events_blocks events
      classes := classes_segment classes
      concepts := concepts_blocks concepts
      globals := globals_blocks globals
      unmatchedOverrides := ⟨_, List.filter_sublist, unmatched⟩ }

end Synth

/-- The output consists of seven segments, one for each category, whose lengths are counted. -/
theorem generate_layout {document : Document} {store : OverrideStore} {config : Config}
    {g : Generation} (success : generate document store config = .ok g) :
    ∃ made : Segments, Layout (.of document store config) made ∧
      g.declarations = made.builtins ++ made.defines ++ made.events ++ made.classes
        ++ made.concepts ++ made.globals ++ made.unmatchedOverrides ∧
      g.report.counts = ⟨made.builtins.length, made.defines.length, made.events.length,
        made.classes.length, made.concepts.length, made.globals.length,
        made.unmatchedOverrides.length⟩ ∧
      g.report.counts.total = g.declarations.length := by
  obtain ⟨_, made, session, runs, rfl⟩ := generate_eq_ok.1 success
  refine ⟨made, Synth.segments_layout runs, rfl, rfl, ?_⟩
  simp [Generation.of, Report.of, Segments.counts, CategoryCounts.total, Segments.declarations,
    Nat.add_assoc]

/-- A document with a class that extends the marker interface, and a table with variants. -/
def inventoryDocument : Document where
  application := "factorio"
  stage := "runtime"
  apiVersion := 3
  builtinTypes := [⟨"string", 0, ""⟩, ⟨"uint", 1, ""⟩]
  classes :=
    [{ name := "LuaInventory"
       order := 0
       methods := [{ name := "help", order := 0 }]
       attributes :=
         [.readOnly "valid" 0 (.named "boolean"), .readOnly "object_name" 1 (.named "string")] }]
  concepts :=
    [{ name := "Slot"
       order := 0
       kind := .table ⟨[.required "index" 0 (.named "uint")],
         [⟨"chest", 0, "", [.required "bar" 0 (.named "uint")]⟩], none⟩ }]
  events := [{ name := "on_tick", order := 1 }, { name := "on_load", order := 0 }]
  defines := [.node "inventory" 0 "" [⟨"chest", 0, ""⟩] []]
  globalObjects := [⟨"game", 0, "", .named "LuaInventory"⟩]

theorem inventoryDocument_layout :
    ∃ g made, generate inventoryDocument .empty {} = .ok g ∧
      Layout (.of inventoryDocument .empty {}) made ∧
      g.declarations = made.builtins ++ made.defines ++ made.events ++ made.classes
        ++ made.concepts ++ made.globals ++ made.unmatchedOverrides ∧
      g.report.counts = ⟨made.builtins.length, made.defines.length, made.events.length,
        made.classes.length, made.concepts.length, made.globals.length,
        made.unmatchedOverrides.length⟩ ∧
      g.report.counts.total = g.declarations.length := by
  obtain ⟨g, success⟩ := exists_generation_of_isOk
    (show (generate inventoryDocument .empty {}).isOk by decide +kernel)
  obtain ⟨made, layout⟩ := generate_layout success
  exact ⟨g, made, success, layout⟩

end Typings

import Typings.Proofs.EntityPages
import Typings.Proofs.Gaps
import Typings.Proofs.Notes

/-! # What a run notes

A run notes the gaps of its document, category by category and in order. The steps for the entities of
a category note nothing else but what they note about types and links.

* `Synth.builtinDeclarations_notes`, `Synth.nodeDeclarations_notes`,
  `Synth.conceptDeclarations_notes`: the steps of the categories that have gaps.
* `Synth.segments_notes`: the gaps of a run.
* `generate_notes`: the gaps in the report.
* `generate_finds_pages`: without links in its remarks a document leaves no link unresolved.
-/

namespace Typings

open Schema (BuiltinType Concept ConceptKind Define Document Event GlobalObject qualified)

namespace Synth

variable {α β : Type} (ctx : Context) {remarks : List String}

/-! ## Classes -/

section Classes

variable {c : Schema.Class}

theorem describedClass_subset : c.description :: c.notes ⊆ c.remarks := by
  simp [Schema.Class.remarks]

theorem Notes.ofMethod {step : Synth α} {m : Schema.Method} (isMember : m ∈ c.methods)
    (notes : Notes step m.remarks []) : Notes step c.remarks [] :=
  (notes.part isMember).mono fun _ inside => by simp_all [Schema.Class.remarks]

theorem Notes.ofAttribute {step : Synth α} {a : Schema.Attribute} (isMember : a ∈ c.attributes)
    (notes : Notes step a.remarks []) : Notes step c.remarks [] :=
  (notes.part isMember).mono fun _ inside => by simp_all [Schema.Class.remarks]

theorem Notes.ofOperator {step : Synth α} {op : Schema.Operator} (isMember : op ∈ c.operators)
    (notes : Notes step op.remarks []) : Notes step c.remarks [] :=
  (notes.part isMember).mono fun _ inside => by simp_all [Schema.Class.remarks]

end Classes

theorem schemaMembers_notes (c : Schema.Class) (o : Option Override) (triad arrayLike : Bool) :
    Notes (schemaMembers ctx c o triad arrayLike) c.remarks [] := by
  refine (Notes.each_gapless fun call isMember => ?_).after fun _ =>
    (Notes.each_gapless fun m isMember => ?_).after fun _ =>
      (Notes.each_gapless fun a isMember => ?_).after fun _ =>
        (Notes.each_gapless fun length isMember => ?_).after fun _ => .pure _
  · exact .ofOperator (call_mem_operators (Option.mem_toList.1 isMember))
      (callMember_notes ctx c.name call)
  · exact .ofMethod (Schema.mem_inOrder.1 (List.mem_of_mem_filter isMember))
      (mergeMethod_notes ctx c.name o m)
  · exact .ofAttribute (Schema.mem_inOrder.1 (List.mem_of_mem_filter isMember))
      (mergeAttribute_notes ctx c.name o a)
  · exact .ofOperator (length_mem_operators (Option.mem_toList.1 isMember))
      (mergeLength_notes ctx c.name o length arrayLike)

theorem indexType_notes (c : Schema.Class) (o : Option Override) :
    Notes (indexType ctx c o) c.remarks [] := by
  rw [indexType]
  split
  next =>
    split
    · exact .pure _
    · exact .throw _
  next index _ isFound =>
    have type := (mapType_notes ctx (c.name ++ ".index") index.type).mono
      (List.subset_append_right (index.description :: index.notes) _)
    exact .ofOperator (index_mem_operators isFound) (type.after fun _ => .pure _)
  next => exact .pure _

/-- A class has no gaps, and its page is found. -/
theorem classDeclarations_notes {c : Schema.Class} (found : (ctx.lookup? c.name).isSome) :
    Notes (classDeclarations ctx c) c.remarks [] := by
  refine .lookup ctx (((describeEntity_notes ctx found _ _ _).mono describedClass_subset).after
    fun doc => (schemaMembers_notes ctx c _ _ _).after fun made =>
      (appendUnclaimed_notes _ _ _).after fun members => ?_)
  split
  · refine (indexType_notes ctx c _).after fun index => ?_
    cases index with
    | some index => exact .pure _
    | none =>
      -- An index without a shape leaves the class as it is, so that nothing is missing.
      exact (Notes.note (by simp [Advisory.isUnresolvedLink])).after fun _ => .pure _
  · exact .pure _

theorem markerDeclarations_notes (c : Schema.Class) :
    Notes (markerDeclarations ctx c) c.remarks [] := by
  refine (Notes.each_gapless fun m isMember => ?_).after fun _ =>
    (Notes.each_gapless fun a isMember => ?_).after fun _ => .pure _
  · exact .ofMethod (List.mem_of_find?_eq_some (Option.mem_toList.1 isMember))
      (mergeMethod_notes ctx _ none m)
  · have isAttribute : a ∈ c.attributes := by
      rcases List.mem_append.1 isMember with isMember | isMember
      · exact List.mem_of_find?_eq_some (Option.mem_toList.1 isMember)
      · exact List.mem_of_find?_eq_some (Option.mem_toList.1 isMember)
    exact .ofAttribute isAttribute (mergeAttribute_notes ctx _ none a)

/-- The marker interface repeats remarks of the class that it is made from, and adds none. -/
theorem classesFrom_notes (marker : Option (List Declaration)) {cs : List Schema.Class}
    (found : ∀ c ∈ cs, (ctx.lookup? c.name).isSome) :
    Notes (classesFrom ctx marker cs) (cs.flatMap Schema.Class.remarks) [] := by
  -- The marker interface changes along the classes.
  induction cs generalizing marker with
  | nil => exact .pure _
  | cons c cs ih =>
    have isFirst : c ∈ c :: cs := List.mem_cons_self
    rw [classesFrom_cons]
    refine Notes.after ?_ fun marker =>
      ((classDeclarations_notes ctx (found c isFirst)).part isFirst).after fun decls =>
        Notes.after ?_ fun rest => .pure _
    · rw [markerAt]
      split
      · exact ((markerDeclarations_notes ctx c).map some).part isFirst
      · exact .pure marker
    · have others := ih marker fun c' isMember => found c' (List.mem_cons_of_mem c isMember)
      exact others.mono (by simp)

/-! ## Events and globals -/

theorem eventDeclaration_notes {event : Event} (found : (ctx.lookup? event.name).isSome) :
    Notes (eventDeclaration ctx event) event.remarks [] := by
  have described := describeEntity_notes ctx found event.description event.notes event.examples
  refine .lookup ctx ((described.mono (List.subset_append_left _ _)).after fun doc => ?_)
  exact ((mergeParameters_notes ctx _ _ event.data).mono (List.subset_append_right _ _)).after
    fun own => (appendUnclaimed_notes _ _ _).after fun _ => .pure _

theorem globalDeclaration_notes {object : GlobalObject}
    (found : (ctx.lookup? object.name).isSome) :
    Notes (globalDeclaration ctx object) (object.description :: object.type.remarks) [] := by
  have described := describeEntity_notes ctx found object.description [] []
  exact ((mapType_notes ctx _ object.type).mono (by simp)).after fun _ =>
    (described.mono (by simp)).after fun _ => .pure _

/-! ## Builtin types -/

/-- A builtin type is a gap if nothing declares it. -/
theorem builtinDeclarations_notes {b : BuiltinType} (found : (ctx.lookup? b.name).isSome) :
    Notes (builtinDeclarations ctx b) [b.description]
      (if b.isGap ctx.overrides ctx.config then [.missingBuiltinDefinition b.name] else []) := by
  have described := describeEntity_notes ctx found b.description [] []
  refine .lookup ctx ?_
  rw [BuiltinType.isGap, OverrideStore.contains_eq_isSome_get?]
  cases ctx.overrides.get? b.name with
  | some o => exact described.after fun _ => .pure _
  | none =>
    dsimp only
    -- A native type is not declared, a numeric one is a name for numbers.
    split
    next native =>
      rw [native]
      exact .pure _
    next declared =>
      refine described.after fun doc => Notes.before ?_ fun _ => .pure _
      rw [plainBuiltin, Bool.eq_false_iff.2 declared]
      split
      next numeric =>
        rw [numeric]
        exact .pure _
      next missing =>
        rw [Bool.eq_false_iff.2 missing]
        exact (Notes.note (by simp [Advisory.isUnresolvedLink])).before fun _ => .pure _

/-! ## Concepts -/

section Concepts

variable (name : String) (doc : Option String)

theorem proseConcept_notes :
    Notes (proseConcept ctx name doc) remarks
      (if !ctx.overrides.contains name then [.missingConceptDefinition name] else []) := by
  refine .lookup ctx ?_
  rw [OverrideStore.contains_eq_isSome_get?]
  cases ctx.overrides.get? name with
  | some o => exact .pure _
  | none => exact (Notes.note (by simp [Advisory.isUnresolvedLink])).before fun _ => .pure _

theorem aliasConcept_notes {type : Synth Ty} (notes : Notes type remarks []) :
    Notes (aliasConcept ctx name doc type) remarks [] := by
  refine .lookup ctx ?_
  cases ctx.overrides.get? name with
  | some o => exact .pure _
  | none => exact notes.after fun _ => .pure _

theorem structuralConcept_notes {members : Option Override → Synth (List Member)}
    (notes : ∀ o, Notes (members o) remarks []) :
    Notes (structuralConcept ctx name doc members) remarks [] := by
  refine .lookup ctx ?_
  cases (ctx.overrides.get? name).filter (·.kind == .alias) with
  | some o => exact .pure _
  | none =>
    exact (notes _).after fun own => (appendUnclaimed_notes _ _ _).after fun _ => .pure _

/-- Whether or not it has variants, a table renders the remarks on its parameters. -/
theorem tableConcept_notes (concept : Concept) (shape : Schema.TableShape) :
    Notes (tableConcept ctx concept shape doc) (Schema.tableRemarks shape.parameters shape.groups)
      [] := by
  rw [tableConcept]
  split
  · exact structuralConcept_notes ctx concept.name doc fun o =>
      (mergeParameters_notes ctx concept.name o shape.parameters).mono
        (List.subset_append_left _ _)
  · refine .lookup ctx ?_
    cases ctx.overrides.get? concept.name with
    | some o => exact .pure _
    | none => exact expandVariants_notes ctx _ doc

/-- A concept is a gap if it is described in prose and nothing overrides it. -/
theorem documentedConcept_notes (concept : Concept) :
    Notes (documentedConcept ctx concept doc) concept.kind.remarks
      (if concept.isGap ctx.overrides then [.missingConceptDefinition concept.name] else []) := by
  rw [documentedConcept, Concept.isGap]
  -- Only a concept in prose can be a gap; any other one has a type of its own.
  cases concept.kind with
  | prose => exact proseConcept_notes ctx concept.name doc
  | union options => exact aliasConcept_notes ctx _ doc (unionType_notes ctx concept.name options)
  | enumeration options => exact aliasConcept_notes ctx _ doc (.pure _)
  | tableOrArray parameters =>
    exact aliasConcept_notes ctx _ doc (tableOrArrayType_notes ctx concept.name parameters)
  | «structure» attributes =>
    exact structuralConcept_notes ctx _ doc fun o => .eachInOrder_gapless fun a _ =>
      mergeAttribute_notes ctx concept.name o a
  | flag options =>
    rw [ConceptKind.remarks, List.map_eq_flatMap]
    exact structuralConcept_notes ctx _ doc fun o => .eachInOrder_gapless fun option _ =>
      flagMember_notes ctx concept.name o option
  | table shape => exact tableConcept_notes ctx doc concept shape
  | filter shape => exact tableConcept_notes ctx doc concept shape

end Concepts

theorem conceptDeclarations_notes {concept : Concept}
    (found : (ctx.lookup? concept.name).isSome) :
    Notes (conceptDeclarations ctx concept) concept.remarks
      (if concept.isGap ctx.overrides then [.missingConceptDefinition concept.name] else []) :=
  ((describeEntity_notes ctx found _ _ _).mono (List.subset_append_left _ _)).after fun doc =>
    (documentedConcept_notes ctx doc concept).mono (List.subset_append_right _ _)

/-! ## The tree of constants -/

theorem overriddenNode_notes (o : Override) (path name : String) (hasValues hasSubkeys : Bool)
    (doc : Option String) :
    Notes (overriddenNode o path name hasValues hasSubkeys doc) remarks [] := by
  rw [overriddenNode]
  split
  · exact .pure _
  · exact .throw _

theorem leaf_notes (path name : String) (values : List Schema.NamedOption) (doc : Option String) :
    Notes
      (if values.isEmpty then pure [] else
        (fun d => [d]) <$> valueEnumeration ctx path name values doc)
      (values.map (·.description)) [] := by
  split
  · exact .pure _
  · refine ((Notes.each_gapless fun value isMember => ?_).after fun _ => .pure _).map _
    have isValue : value.1 ∈ values := by
      rw [← Schema.mem_inOrder, ← List.zipIdx_map_fst 0 (Schema.inOrder values)]
      exact List.mem_map_of_mem isMember
    refine ((describe_notes ctx _ value.1.description).mono ?_).after fun _ => .pure _
    simpa using ⟨value.1, isValue, rfl⟩

theorem children_notes (path name : String) (subkeys : List Define) (doc : Option String)
    {gaps : Define → List Advisory}
    (notes : ∀ d ∈ subkeys, Notes (nodeDeclarations ctx path d) d.remarks (gaps d)) :
    Notes
      (if subkeys.isEmpty then pure [] else
        (fun body : List (List Declaration) => [Declaration.nameSpace name body.flatten doc])
          <$> inOrder (nodeSteps ctx path subkeys))
      (Define.listRemarks subkeys) ((Schema.inOrder subkeys).flatMap gaps) := by
  rw [inOrder_nodeSteps, Define.listRemarks_eq_flatMap]
  cases subkeys with
  | nil => exact .pure _
  | cons d ds => exact (Notes.eachInOrder notes).map _

/-- The gaps below a node are noted in the order in which a run comes across them. -/
theorem nodeDeclarations_notes {parent : String} (above : List String) {d : Define}
    (found : ∀ path node, d.Reaches ctx.overrides parent path node → (ctx.lookup? path).isSome)
    (notBelow : ∀ path ∈ above, ctx.overrides.get? path = none) :
    Notes (nodeDeclarations ctx parent d) d.remarks (d.gaps ctx.overrides parent above) := by
  -- The nodes below are at a longer path, so the parent changes with the node.
  induction d using Schema.Define.induct generalizing parent above with
  | node name order description values subkeys ih =>
    rw [forall_reaches] at found
    obtain ⟨here, below⟩ := found
    rw [nodeDeclarations, Define.gaps_node notBelow, Define.remarks,
      OverrideStore.contains_eq_isSome_get?]
    have described := describeEntity_notes ctx here description [] []
    refine (described.mono (by simp)).after fun doc => .lookup ctx ?_
    cases isFound : ctx.overrides.get? (qualified parent name) with
    -- An override stands for the node and for all that is below it.
    | some o => exact (overriddenNode_notes _ _ _ _ _ doc).after fun _ => .pure _
    | none =>
      have leaf := leaf_notes ctx (qualified parent name) name values doc
      have children := children_notes ctx (qualified parent name) name subkeys
        (if values.isEmpty then doc else none) fun sub isMember =>
          ih sub isMember _ (below isFound sub isMember) (notBelow_append notBelow isFound)
      simp only [← ite_bind]
      refine (leaf.mono (by simp)).after fun leaf => (children.mono (by simp)).bind fun inner => ?_
      -- The node itself is a gap if it has neither values nor subkeys.
      split
      · exact (Notes.note (by simp [Advisory.isUnresolvedLink])).before fun _ => .pure _
      · exact .pure _

/-! ## Categories -/

theorem flatMap_gap (isGap : α → Bool) (advisory : α → Advisory) (xs : List α) :
    (xs.flatMap fun x => if isGap x then [advisory x] else []) =
      (xs.filter isGap).map advisory := by
  induction xs with
  | nil => rfl
  | cons x xs ih =>
    rw [List.flatMap_cons, ih, List.filter_cons]
    split
    · rfl
    · rfl

theorem builtins_notes (finds : ctx.FindsEntities) :
    Notes (builtins ctx) (ctx.document.builtinTypes.map (·.description))
      (((Schema.inOrder ctx.document.builtinTypes).filter (·.isGap ctx.overrides ctx.config)).map
        fun b => .missingBuiltinDefinition b.name) := by
  rw [← flatMap_gap, List.map_eq_flatMap]
  exact Notes.before (.eachInOrder fun b isMember =>
    builtinDeclarations_notes ctx (finds.builtins b isMember)) fun _ => .pure _

theorem constants_notes (finds : ctx.FindsEntities) :
    Notes (constants ctx) (Define.listRemarks ctx.document.defines)
      (((ctx.document.reachedPlaces ctx.overrides ctx.config.constantsRoot).filter
        (·.isGap ctx.overrides)).map fun place => .missingConstantDefinition place.path) := by
  have notes := children_notes ctx ctx.config.constantsRoot ctx.config.constantsRoot
    ctx.document.defines none fun d isMember =>
      nodeDeclarations_notes ctx [] (finds.nodes d isMember ctx.overrides) (by simp)
  rw [Document.nodeGaps_eq]
  simpa only [constants, map_eq_pure_bind] using notes

theorem events_notes (finds : ctx.FindsEntities) :
    Notes (events ctx) (ctx.document.events.flatMap Event.remarks) [] :=
  .eachInOrder_gapless fun event isMember =>
    eventDeclaration_notes ctx (finds.events event isMember)

theorem classes_notes (finds : ctx.FindsEntities) :
    Notes (classes ctx) (ctx.document.classes.flatMap Schema.Class.remarks) [] := by
  have notes := classesFrom_notes ctx none fun c isMember =>
    finds.classes c (Schema.mem_inOrder.1 isMember)
  exact (notes.mono fun text inside => by simpa using inside).after fun _ => .pure _

theorem concepts_notes (finds : ctx.FindsEntities) :
    Notes (concepts ctx) (ctx.document.concepts.flatMap Concept.remarks)
      (((Schema.inOrder ctx.document.concepts).filter (·.isGap ctx.overrides)).map
        fun concept => .missingConceptDefinition concept.name) := by
  rw [← flatMap_gap]
  exact Notes.before (.eachInOrder fun concept isMember =>
    conceptDeclarations_notes ctx (finds.concepts concept isMember)) fun _ => .pure _

theorem globals_notes (finds : ctx.FindsEntities) :
    Notes (globals ctx)
      (ctx.document.globalObjects.flatMap fun object => object.description :: object.type.remarks)
      [] :=
  .eachInOrder_gapless fun object isMember =>
    globalDeclaration_notes ctx (finds.globals object isMember)

/-- A run notes the gaps of the document, in the order of the categories. -/
theorem segments_notes (finds : ctx.FindsEntities) :
    Notes (segments ctx) ctx.document.remarks (ctx.document.gaps ctx.overrides ctx.config) := by
  rw [Document.gaps, List.append_assoc]
  refine ((builtins_notes ctx finds).mono ?_).bind fun _ =>
    ((constants_notes ctx finds).mono ?_).bind fun _ =>
      ((events_notes ctx finds).mono ?_).after fun _ =>
        ((classes_notes ctx finds).mono ?_).after fun _ =>
          ((concepts_notes ctx finds).mono ?_).before fun _ =>
            ((globals_notes ctx finds).mono ?_).after fun _ => Notes.get.after fun _ => .pure _
  -- Each category renders its own part of the remarks of the document.
  all_goals
    intro text inside
    simp only [Document.remarks, List.mem_append, inside, true_or, or_true]

end Synth

/-! ## The report -/

variable {document : Document} {store : OverrideStore} {config : Config} {g : Generation}

/-- The gaps of a document are noted one by one. Without links nothing remains unresolved. -/
theorem generate_notes (success : generate document store config = .ok g) :
    g.report.advisories.filter Advisory.isGap = document.gaps store config ∧
      (NoLinks document.remarks →
        ∀ advisory ∈ g.report.advisories, ¬ advisory.isUnresolvedLink) := by
  obtain ⟨_, made, session, runs, rfl⟩ := generate_eq_ok.1 success
  have finds := Context.of_findsEntities document store config
  obtain ⟨added, appended, sameGaps, found⟩ := Synth.segments_notes _ finds _ _ _ runs
  -- A run starts without advisories, so that those it appends are all there are.
  rw [List.nil_append] at appended
  rw [← appended] at sameGaps found
  exact ⟨sameGaps, found⟩

/-- Entities refer to pages that are found. So a document without links inside its remarks leaves no
link unresolved. -/
theorem generate_finds_pages (success : generate document store config = .ok g)
    (plain : NoLinks document.remarks) :
    (Context.of document store config).FindsEntities ∧
      ∀ context reference, .unresolvedLink context reference ∉ g.report.advisories := by
  refine ⟨Context.of_findsEntities document store config, fun context reference isMember => ?_⟩
  exact (generate_notes success).2 plain _ isMember rfl

/-- A document with remarks on all categories, whose tree of constants has two levels. -/
def quarryDocument : Document where
  application := "factorio"
  stage := "runtime"
  apiVersion := 3
  builtinTypes := [⟨"Picture", 2, "An image."⟩, ⟨"uint", 1, ""⟩, ⟨"Vector", 3, ""⟩, ⟨"string", 0, ""⟩]
  classes := [{ name := "LuaQuarry", order := 0, description := "Digs.", notes := ["Slowly."] }]
  concepts :=
    [{ name := "Ore", order := 1, description := "What is dug.", kind := .prose },
      { name := "Seam", order := 0, kind := .prose }]
  events := [{ name := "on_dug", order := 0, notes := ["May be late."] }]
  defines :=
    [.node "rock" 1 "Kinds of rock." [] [.node "hard" 1 "" [] [], .node "soft" 0 "" [] []],
      .node "sealed" 0 "" [] [.node "inner" 0 "" [] []]]
  globalObjects := [⟨"quarry", 0, "The quarry.", .named "LuaQuarry"⟩]

/-- Overrides of a builtin type, of a node with one below it, and of a concept. -/
def quarryEntries : List OverrideEntry :=
  [⟨.alias { name := "Vector", ty := .tuple [] }, none⟩,
    ⟨.nameSpace "defines.sealed" [.alias { name := "unknown", ty := .any }] none, none⟩,
    ⟨.alias { name := "Seam", ty := .named "Ore" }, none⟩]

theorem quarryDocument_finds_pages :
    ∃ store g, OverrideStore.ofEntries quarryEntries = .ok store ∧
      generate quarryDocument store {} = .ok g ∧ NoLinks quarryDocument.remarks ∧
      (Context.of quarryDocument store {}).FindsEntities ∧
      ∀ context reference, .unresolvedLink context reference ∉ g.report.advisories := by
  obtain ⟨store, made, isOk⟩ : ∃ store, OverrideStore.ofEntries quarryEntries = .ok store ∧
      (generate quarryDocument store {}).isOk :=
    ⟨⟨_, _, _, _⟩, rfl, by decide +kernel⟩
  obtain ⟨g, success⟩ := exists_generation_of_isOk isOk
  have plain : NoLinks quarryDocument.remarks := by decide +kernel
  exact ⟨store, g, made, success, plain, generate_finds_pages success plain⟩

end Typings

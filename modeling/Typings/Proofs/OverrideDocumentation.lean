import Typings.Proofs.UnaskedOverride

/-! # Documentation of overrides

The schema documents every entity, so that the documentation of an override is never used in place
of it. It shows only where the override is left over: with other documentation a run does the same
step by step.

* `OverrideEntry.undocumented`, `OverrideStore.undocumented`: overrides without documentation.
* `Synth.describeEntity_eq_some`: an entity always has a documentation.
* `Synth.entities_undocumented`: the steps for entities do not read the documentation of overrides.
* `generate_redocumented`: the outcomes with overrides that differ in their documentation.
-/

namespace Typings

open Schema (BuiltinType Concept Define Document Event Parameter TableShape)
open Text (Documentation)

/-! ## Overrides without documentation -/

def OverrideEntry.undocumented (entry : OverrideEntry) : OverrideEntry :=
  { entry with declaration := entry.declaration.withDoc none }

def Override.undocumented (o : Override) : Override :=
  { o with doc := none }

@[simp] theorem Declaration.withDoc_withDoc (doc doc' : Option String) (decl : Declaration) :
    (decl.withDoc doc').withDoc doc = decl.withDoc doc := by
  cases decl <;> rfl

@[simp] theorem Declaration.doc?_withDoc (doc : Option String) (decl : Declaration) :
    (decl.withDoc doc).doc? = doc := by
  cases decl <;> rfl

/-- Without its documentation an entry holds the same override, but for the documentation. -/
theorem OverrideEntry.Makes.undocumented {entry : OverrideEntry} {o : Override}
    (makes : entry.Makes o) : entry.undocumented.Makes o.undocumented := by
  rw [Makes, Override.ofEntry] at makes ⊢
  simp only [OverrideEntry.undocumented, OverrideEntry.name, Declaration.overrideKind?_withDoc,
    Declaration.withDoc_withDoc, Declaration.doc?_withDoc]
  split at makes
  next => cases makes
  next kind isKind =>
    split at makes
    next => cases makes
    next plain =>
      cases makes
      rw [if_neg plain]
      rfl

namespace OverrideStore

variable (store : OverrideStore)

def undocumented : OverrideStore where
  overrides := store.overrides.map Override.undocumented
  positions := store.positions
  located := by
    rw [List.map_map]
    exact store.located
  source := store.source

theorem get?_undocumented (name : String) :
    store.undocumented.get? name = (store.get? name).map Override.undocumented := by
  rw [get?_eq_find?, get?_eq_find?, undocumented, List.find?_map]
  rfl

theorem contains_undocumented (name : String) :
    store.undocumented.contains name = store.contains name := by
  rw [contains_eq_isSome_get?, contains_eq_isSome_get?, get?_undocumented, Option.isSome_map]

variable {store} {entries entries' : List OverrideEntry} {store' : OverrideStore}

theorem ofEntries_undocumented (made : ofEntries entries = .ok store) :
    ofEntries (entries.map OverrideEntry.undocumented) = .ok store.undocumented := by
  obtain ⟨all, isInline⟩ := ofEntries_eq_ok.1 made
  refine ofEntries_eq_ok.2 ⟨?_, isInline⟩
  rw [undocumented, List.forall₂_map_left_iff, List.forall₂_map_right_iff]
  exact all.imp fun _ _ makes => makes.undocumented

theorem undocumented_eq_of_ofEntries
    (same : entries.map OverrideEntry.undocumented = entries'.map OverrideEntry.undocumented)
    (made : ofEntries entries = .ok store) (made' : ofEntries entries' = .ok store') :
    store.undocumented = store'.undocumented := by
  have bare := ofEntries_undocumented made
  rw [same, ofEntries_undocumented made'] at bare
  injection bare with equal
  exact equal.symm

end OverrideStore

def Context.undocumented (ctx : Context) : Context :=
  { ctx with overrides := ctx.overrides.undocumented }

theorem Context.undocumented_agrees (ctx : Context) : ctx.undocumented.Agrees ctx :=
  ⟨rfl, rfl, rfl⟩

namespace Synth

variable {ctx : Context}

/-! ## Documentation of entities -/

theorem render_of_see (parts : Documentation) {page : String} (seen : parts.see = some page) :
    ∃ text, parts.render = some text := by
  rw [Documentation.render]
  split
  next noBlocks => simp [Documentation.blocks, seen] at noBlocks
  next => exact ⟨_, rfl⟩

/-- Every entity has a documentation: at least it refers to its page. -/
theorem describeEntity_eq_some (ctx : Context) (name description : String)
    (notes examples : List String) :
    ∃ text : Synth String, describeEntity ctx name description notes examples = some <$> text := by
  refine ⟨do
    let description ← renderLinks ctx name description
    let notes ← each (renderLinks ctx name) notes
    let page ← resolve ctx name name
    return ((Documentation.mk description notes examples (some page)).render).getD "", ?_⟩
  have isSome (description : String) (notes : List String) (page : String) :
      some ((Documentation.mk description notes examples (some page)).render.getD "") =
        (Documentation.mk description notes examples (some page)).render := by
    obtain ⟨text, rendered⟩ := render_of_see ⟨description, notes, examples, some page⟩ rfl
    rw [rendered, Option.getD_some]
  simp only [describeEntity, documentation, map_bind, map_pure, bind_map_left, isSome]

theorem verbatim_undocumented (o : Override) (text : String) :
    verbatim o.undocumented (some text) = verbatim o (some text) := rfl

/-! ## Lookups and merges -/

/-- A lookup finds the same override, and what follows does not depend on its documentation. -/
theorem findOverride_undocumented {α : Type} {name : String} {allowed : List OverrideKind}
    {next next' : Option Override → Synth α}
    (same : ∀ o, next' (o.map Override.undocumented) = next o) :
    findOverride ctx.undocumented name allowed >>= next' =
      findOverride ctx name allowed >>= next := by
  have found : ctx.undocumented.overrides.get? name =
      (ctx.overrides.get? name).map Override.undocumented :=
    ctx.overrides.get?_undocumented name
  rw [findOverride, findOverride, found]
  cases ctx.overrides.get? name with
  | none => exact same none
  | some o =>
    dsimp only [Option.map_some, Override.undocumented]
    split
    · simp only [bind_assoc, pure_bind]
      exact congrArg _ (funext fun _ => same (some o))
    · rfl

variable (o : Option Override)

theorem claimMember_undocumented (entity : String) :
    claimMember entity (o.map Override.undocumented) = claimMember entity o := by
  cases o <;> rfl

theorem mergeMember_undocumented (entity : String) :
    mergeMember entity (o.map Override.undocumented) = mergeMember entity o := by
  funext name expected doc synthesize
  rw [mergeMember, mergeMember, claimMember_undocumented]

theorem appendUnclaimed_undocumented (entity : String) :
    appendUnclaimed entity (o.map Override.undocumented) = appendUnclaimed entity o := by
  cases o <;> rfl

theorem mergedInterface_undocumented (name : String) :
    mergedInterface name (o.map Override.undocumented) = mergedInterface name o := by
  cases o <;> rfl

theorem mergeAttribute_undocumented (entity : String) :
    mergeAttribute ctx.undocumented entity (o.map Override.undocumented) =
      mergeAttribute ctx entity o := by
  funext attr
  rw [← mergeAttribute_congr ctx.undocumented_agrees (.refl attr), mergeAttribute, mergeAttribute,
    mergeMember_undocumented]

theorem mergeParameters_undocumented (entity : String) :
    mergeParameters ctx.undocumented entity (o.map Override.undocumented) =
      mergeParameters ctx entity o := by
  have sameStep : mergeParameter ctx.undocumented entity (o.map Override.undocumented) =
      mergeParameter ctx.undocumented entity o := by
    funext parameter
    rw [mergeParameter, mergeParameter, mergeMember_undocumented]
  funext parameters
  rw [← mergeParameters_congr ctx.undocumented_agrees (.refl fun p _ => .refl p), mergeParameters,
    mergeParameters, sameStep]

theorem mergeMethod_undocumented (entity : String) :
    mergeMethod ctx.undocumented entity (o.map Override.undocumented) =
      mergeMethod ctx entity o := by
  funext method
  rw [← mergeMethod_congr ctx.undocumented_agrees (.refl method), mergeMethod, mergeMethod,
    claimMember_undocumented]

theorem mergeLength_undocumented (entity : String) (length : Schema.Attribute) (arrayLike : Bool) :
    mergeLength ctx.undocumented entity (o.map Override.undocumented) length arrayLike =
      mergeLength ctx entity o length arrayLike := by
  rw [← mergeLength_congr ctx.undocumented_agrees (.refl length), mergeLength, mergeLength,
    mergeMember_undocumented]

theorem flagMember_undocumented (name : String) :
    flagMember ctx.undocumented name (o.map Override.undocumented) = flagMember ctx name o := by
  funext option
  rw [flagMember_congr ctx.undocumented_agrees, flagMember, flagMember, mergeMember_undocumented]

/-! ## Builtin types and events -/

theorem builtinDeclarations_undocumented (builtin : BuiltinType) :
    builtinDeclarations ctx.undocumented builtin = builtinDeclarations ctx builtin := by
  refine findOverride_undocumented fun o => ?_
  rw [describeEntity_congr ctx.undocumented_agrees]
  cases o with
  | none => rfl
  | some o =>
    obtain ⟨text, described⟩ := describeEntity_eq_some ctx builtin.name builtin.description [] []
    simp only [Option.map_some, described, bind_map_left, verbatim_undocumented]

theorem eventDeclaration_undocumented (event : Event) :
    eventDeclaration ctx.undocumented event = eventDeclaration ctx event := by
  refine findOverride_undocumented fun o => ?_
  rw [describeEntity_congr ctx.undocumented_agrees, mergeParameters_undocumented,
    appendUnclaimed_undocumented, mergedInterface_undocumented]

/-! ## Classes -/

theorem schemaMembers_undocumented (c : Schema.Class) (triad arrayLike : Bool) :
    schemaMembers ctx.undocumented c (o.map Override.undocumented) triad arrayLike =
      schemaMembers ctx c o triad arrayLike := by
  have sameCall : callMember ctx.undocumented c.name = callMember ctx c.name :=
    funext fun call => callMember_congr ctx.undocumented_agrees (.refl call) c.name
  simp only [schemaMembers, sameCall, mergeMethod_undocumented, mergeAttribute_undocumented,
    mergeLength_undocumented]

theorem classDeclarations_undocumented (c : Schema.Class) :
    classDeclarations ctx.undocumented c = classDeclarations ctx c := by
  refine findOverride_undocumented fun o => ?_
  have sameIndex := indexType_congr ctx.undocumented_agrees (.refl c) o
  simp only [describeEntity_congr ctx.undocumented_agrees, schemaMembers_undocumented,
    appendUnclaimed_undocumented]
  cases o with
  | none => simp only [← sameIndex]; rfl
  | some o => simp only [← sameIndex]; rfl

theorem classesFrom_undocumented (marker : Option (List Declaration)) (cs : List Schema.Class) :
    classesFrom ctx.undocumented marker cs = classesFrom ctx marker cs := by
  induction cs generalizing marker with
  | nil => rfl
  | cons c cs ih =>
    have sameMarker := markerAt_congr ctx.undocumented_agrees
      (ctx.overrides.contains_undocumented _) (.refl c) marker
    simp only [classesFrom_cons, sameMarker, classDeclarations_undocumented, ih]

/-! ## Concepts -/

section Concepts

variable (name text : String)

theorem proseConcept_undocumented :
    proseConcept ctx.undocumented name (some text) = proseConcept ctx name (some text) := by
  refine findOverride_undocumented fun o => ?_
  cases o <;> rfl

theorem aliasConcept_undocumented (type : Synth Ty) :
    aliasConcept ctx.undocumented name (some text) type =
      aliasConcept ctx name (some text) type := by
  refine findOverride_undocumented fun o => ?_
  cases o <;> rfl

theorem structuralConcept_undocumented {members members' : Option Override → Synth (List Member)}
    (same : ∀ o, members' (o.map Override.undocumented) = members o) :
    structuralConcept ctx.undocumented name (some text) members' =
      structuralConcept ctx name (some text) members := by
  refine findOverride_undocumented fun o => ?_
  rw [same, appendUnclaimed_undocumented, mergedInterface_undocumented]
  cases o with
  | none => rfl
  | some o =>
    have sameKind : o.undocumented.kind = o.kind := rfl
    simp only [Option.map_some, Option.filter_some, sameKind]
    cases o.kind == .alias <;> rfl

theorem tableConcept_undocumented (concept : Concept) (shape : TableShape) :
    tableConcept ctx.undocumented concept shape (some text) =
      tableConcept ctx concept shape (some text) := by
  rw [tableConcept, tableConcept]
  split
  · refine structuralConcept_undocumented concept.name text fun o => ?_
    rw [mergeParameters_undocumented]
  · refine findOverride_undocumented fun o => ?_
    cases o with
    | none =>
      refine expandVariants_congr ctx.undocumented_agrees (.intro ?_ ?_) (some text)
      · exact .refl fun p _ => .refl p
      · exact .refl fun group _ => .refl group
    | some o => rfl

/-- Where the schema has documentation, that of the override is not looked at. -/
theorem documentedConcept_undocumented (concept : Concept) :
    documentedConcept ctx.undocumented concept (some text) =
      documentedConcept ctx concept (some text) := by
  have agrees := ctx.undocumented_agrees
  rw [documentedConcept, documentedConcept]
  cases concept.kind with
  | prose => exact proseConcept_undocumented concept.name text
  | union options =>
    dsimp only
    rw [aliasConcept_undocumented,
      unionType_congr agrees (.refl fun option _ => .intro (.refl option.type)) concept.name]
  | enumeration options => exact aliasConcept_undocumented concept.name text _
  | tableOrArray parameters =>
    dsimp only
    rw [aliasConcept_undocumented,
      tableOrArrayType_congr agrees (.refl fun p _ => .refl p) concept.name]
  | «structure» attributes =>
    refine structuralConcept_undocumented concept.name text fun o => ?_
    rw [mergeAttribute_undocumented]
  | flag options =>
    refine structuralConcept_undocumented concept.name text fun o => ?_
    rw [flagMember_undocumented]
  | table shape => exact tableConcept_undocumented text concept shape
  | filter shape => exact tableConcept_undocumented text concept shape

theorem conceptDeclarations_undocumented (concept : Concept) :
    conceptDeclarations ctx.undocumented concept = conceptDeclarations ctx concept := by
  rw [conceptDeclarations, conceptDeclarations, describeEntity_congr ctx.undocumented_agrees]
  obtain ⟨text, described⟩ := describeEntity_eq_some ctx concept.name concept.description
    concept.notes concept.examples
  simp only [described, bind_map_left, documentedConcept_undocumented]

end Concepts

/-! ## The tree of constants -/

/-- Nodes are documented by their own descriptions. -/
theorem nodeDeclarations_undocumented (d : Define) (parent : String) :
    nodeDeclarations ctx.undocumented parent d = nodeDeclarations ctx parent d := by
  -- The nodes below are at a longer path, so the parent changes with the node.
  induction d using Define.induct generalizing parent with
  | node name order description values subkeys ih =>
    have agrees := ctx.undocumented_agrees
    have sameValues : Schema.Shuffled Eq values values := .refl fun _ _ => rfl
    have sameLeaf := valueEnumeration_congr agrees sameValues
    have sameInner : each (nodeDeclarations ctx.undocumented (Schema.qualified parent name))
        (Schema.inOrder subkeys) = each (nodeDeclarations ctx (Schema.qualified parent name))
          (Schema.inOrder subkeys) := by
      refine each_congr (List.forall₂_same.2 fun _ _ => rfl) fun d isMember d' equal => ?_
      subst equal
      exact ih d (Schema.mem_inOrder.1 isMember) _
    obtain ⟨text, described⟩ :=
      describeEntity_eq_some ctx (Schema.qualified parent name) description [] []
    rw [nodeDeclarations, nodeDeclarations, describeEntity_congr agrees, described]
    simp only [bind_map_left]
    refine congrArg _ (funext fun text => findOverride_undocumented fun o => ?_)
    cases o with
    | none => simp only [Option.map_none, inOrder_nodeSteps, sameLeaf, sameInner]
    | some o => rfl

theorem constants_undocumented : constants ctx.undocumented = constants ctx := by
  have sameNode : nodeDeclarations ctx.undocumented ctx.config.constantsRoot =
      nodeDeclarations ctx ctx.config.constantsRoot :=
    funext fun d => nodeDeclarations_undocumented d _
  have sameDocument : ctx.undocumented.document = ctx.document := rfl
  have sameConfig : ctx.undocumented.config = ctx.config := rfl
  simp only [constants, inOrder_nodeSteps, sameDocument, sameConfig, sameNode]

/-! ## Runs -/

/-- The steps for entities do not read the documentation of overrides. -/
theorem entities_undocumented (ctx : Context) : entities ctx.undocumented = entities ctx := by
  have sameBuiltins : builtins ctx.undocumented = builtins ctx := by
    rw [builtins, builtins, funext builtinDeclarations_undocumented]
    rfl
  have sameEvents : events ctx.undocumented = events ctx := by
    rw [events, events, funext eventDeclaration_undocumented]
    rfl
  have sameClasses : classes ctx.undocumented = classes ctx := by
    rw [classes, classes, classesFrom_undocumented]
    rfl
  have sameConcepts : concepts ctx.undocumented = concepts ctx := by
    rw [concepts, concepts, funext conceptDeclarations_undocumented]
    rfl
  have sameGlobals : globals ctx.undocumented = globals ctx := by
    have sameGlobal : globalDeclaration ctx.undocumented = globalDeclaration ctx :=
      funext fun object =>
        globalDeclaration_congr ctx.undocumented_agrees (.intro (.refl object.type))
    rw [globals, globals, sameGlobal]
    rfl
  rw [entities, entities, sameBuiltins, constants_undocumented, sameEvents, sameClasses,
    sameConcepts, sameGlobals]

/-- What is left over differs from the same without documentation only in that. -/
theorem unmatchedOverrides_undocumented (ctx : Context) (session : Session) :
    unmatchedOverrides ctx.undocumented session =
      (unmatchedOverrides ctx session).map (Declaration.withDoc none) := by
  have bare (o : Override) : o.undocumented.documented = o.documented.withDoc none :=
    (Declaration.withDoc_withDoc none o.doc o.declaration).symm
  have sameStore : ctx.undocumented.overrides.overrides =
      ctx.overrides.overrides.map Override.undocumented := rfl
  rw [unmatchedOverrides, unmatchedOverrides, sameStore, List.filter_map, List.map_map,
    List.map_map, Function.comp_def, Function.comp_def]
  simp only [bare]
  rfl

end Synth

/-! ## Outcomes -/

variable {document : Document} {config : Config} {store store' : OverrideStore}
  {entries entries' : List OverrideEntry}

theorem entities_eq_of_undocumented (same : store.undocumented = store'.undocumented) :
    Synth.entities (.of document store config) = Synth.entities (.of document store' config) := by
  rw [← Synth.entities_undocumented (.of document store config),
    ← Synth.entities_undocumented (.of document store' config), Context.undocumented,
    Context.undocumented]
  simp only [Context.of, same]

/-- The entities come out equal. What is left over has the documentation of either store. -/
theorem runs_segments_redocumented (same : store.undocumented = store'.undocumented)
    {made : Segments} {session : Session}
    (runs : Synth.Runs (Synth.segments (.of document store config)) {} made session) :
    ∃ left, Synth.Runs (Synth.segments (.of document store' config)) {}
        { made with unmatchedOverrides := left } session ∧
      left.map (Declaration.withDoc none) =
        made.unmatchedOverrides.map (Declaration.withDoc none) := by
  obtain ⟨base, entities, rfl⟩ := Synth.runs_segments_iff.1 runs
  rw [entities_eq_of_undocumented same] at entities
  refine ⟨_, Synth.runs_segments_iff.2 ⟨base, entities, rfl⟩, ?_⟩
  rw [← Synth.unmatchedOverrides_undocumented, ← Synth.unmatchedOverrides_undocumented]
  simp only [Context.undocumented, Context.of, same]

/-- The documentation of overrides reaches what is left over and nothing else. With entries that
    differ in the documentation of their declarations only, a run fails alike or makes the same;
    what is left over is the declaration of the entry, with the documentation of that entry. -/
theorem generate_redocumented
    (same : entries.map OverrideEntry.undocumented = entries'.map OverrideEntry.undocumented)
    (made : OverrideStore.ofEntries entries = .ok store)
    (made' : OverrideStore.ofEntries entries' = .ok store') (document : Document)
    (config : Config) :
    (∀ e, generate document store config = .error e ↔
      generate document store' config = .error e) ∧
    ∀ g, generate document store config = .ok g →
      ∃ g' body, generate document store' config = .ok g' ∧
        g.declarations = body ++ document.leftOver store config entries ∧
        g'.declarations = body ++ document.leftOver store' config entries' ∧
        (document.leftOver store config entries).map (Declaration.withDoc none) =
          (document.leftOver store' config entries').map (Declaration.withDoc none) ∧
        g.report.counts.unmatchedOverrides = (document.leftOver store config entries).length ∧
        g'.report.counts = g.report.counts ∧ g'.report.advisories = g.report.advisories := by
  have bare := OverrideStore.undocumented_eq_of_ofEntries same made made'
  refine ⟨fun e => ?_, fun g success => ?_⟩
  · rw [generate_eq_error, generate_eq_error, Synth.fails_segments_iff, Synth.fails_segments_iff,
      entities_eq_of_undocumented bare]
  · obtain ⟨valid, segments, session, runs, rfl⟩ := generate_eq_ok.1 success
    obtain ⟨left, runs', sameLeft⟩ := runs_segments_redocumented bare runs
    have leftOver : segments.unmatchedOverrides = document.leftOver store config entries :=
      unmatchedOverrides_eq made runs
    have leftOver' : left = document.leftOver store' config entries' :=
      unmatchedOverrides_eq made' runs'
    have sameLength : left.length = segments.unmatchedOverrides.length := by
      simpa using congrArg List.length sameLeft
    refine ⟨_, segments.builtins ++ segments.defines ++ segments.events ++ segments.classes
      ++ segments.concepts ++ segments.globals, generate_eq_ok.2 ⟨valid, _, session, runs', rfl⟩,
      ?_, ?_, ?_, ?_, ?_, rfl⟩
    · rw [← leftOver]
      rfl
    · rw [← leftOver']
      rfl
    · rw [← leftOver, ← leftOver', sameLeft]
    · rw [← leftOver]
      rfl
    · simp only [Generation.of, Report.of, Segments.counts, sameLength]

/-- The entries for the document with the chest, all of them with other documentation. -/
def rewordedChestEntries : List OverrideEntry :=
  [⟨.enumeration { name := "defines.chest.slot" }, none⟩,
    ⟨.interface { name := "LuaChest", doc := some "A chest." }, none⟩,
    ⟨.nameSpace "defines.chest" [] (some "Chests."), none⟩,
    ⟨.alias { name := "Count", ty := .keyword .number, doc := some "How many." }, none⟩]

theorem rewordedChestEntries_redocumented :
    ∃ store store' g g' body, OverrideStore.ofEntries chestEntries = .ok store ∧
      OverrideStore.ofEntries rewordedChestEntries = .ok store' ∧
      generate chestDocument store {} = .ok g ∧ generate chestDocument store' {} = .ok g' ∧
      g.declarations = body ++ chestDocument.leftOver store {} chestEntries ∧
      g'.declarations = body ++ chestDocument.leftOver store' {} rewordedChestEntries ∧
      (chestDocument.leftOver store {} chestEntries).map Declaration.doc? =
        [some "Slots.", some "A count."] ∧
      (chestDocument.leftOver store' {} rewordedChestEntries).map Declaration.doc? =
        [none, some "How many."] ∧
      g'.report.counts = g.report.counts ∧ g'.report.advisories = g.report.advisories := by
  obtain ⟨store, made, docs, isOk⟩ : ∃ store, OverrideStore.ofEntries chestEntries = .ok store ∧
      (chestDocument.leftOver store {} chestEntries).map Declaration.doc? =
        [some "Slots.", some "A count."] ∧ (generate chestDocument store {}).isOk :=
    ⟨⟨_, _, _, _⟩, rfl, by decide +kernel, by decide +kernel⟩
  obtain ⟨store', made', docs'⟩ : ∃ store',
      OverrideStore.ofEntries rewordedChestEntries = .ok store' ∧
      (chestDocument.leftOver store' {} rewordedChestEntries).map Declaration.doc? =
        [none, some "How many."] :=
    ⟨⟨_, _, _, _⟩, rfl, by decide +kernel⟩
  obtain ⟨g, success⟩ := exists_generation_of_isOk isOk
  have same : chestEntries.map OverrideEntry.undocumented =
      rewordedChestEntries.map OverrideEntry.undocumented := rfl
  obtain ⟨_, outcome⟩ := generate_redocumented same made made' chestDocument {}
  obtain ⟨g', body, success', before, after, _, _, counts, advisories⟩ := outcome g success
  exact ⟨store, store', g, g', body, made, made', success, success', before, after, docs, docs',
    counts, advisories⟩

end Typings

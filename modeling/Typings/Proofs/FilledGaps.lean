import Typings.Proofs.RunNotes

/-! # Gaps in the output

Where the definition of a builtin type, of a node or of a concept is missing, the output declares the
name as `any`. The advisories of a run say for which names, in the order of the output.

* `Declaration.anyPaths`: the names that are declared as `any`, inside namespaces too.
* `NodesEmitted.listAnyPaths_eq`: among the constants these are the gaps and what overrides declare.
* `GapsFilled`: what stands in the output for the gaps.
* `generate_reports_gaps`: the gaps that a run notes, and what it fills them with.
-/

namespace Typings

open Schema (BuiltinType Concept Define Document qualified)

/-! ## Names for `any` -/

def Ty.isAny : Ty → Bool
  | .keyword .any => true
  | _ => false

mutual

/-- The qualified names below a path that the declaration makes names for `any`. -/
def Declaration.anyPaths (path : String) : Declaration → List String
  | .nameSpace name body _ => Declaration.listAnyPaths (qualified path name) body
  | .alias decl => if decl.ty.isAny then [qualified path decl.name] else []
  | .interface _ => []
  | .enumeration _ => []
  | .const _ => []

def Declaration.listAnyPaths (path : String) : List Declaration → List String
  | [] => []
  | d :: ds => d.anyPaths path ++ Declaration.listAnyPaths path ds

end

/-- The qualified names for `any` below a namespace. -/
def Declaration.anyPathsBelow : Declaration → List String
  | .nameSpace name body _ => Declaration.listAnyPaths name body
  | _ => []

/-- The block makes the name one for `any`, and nothing else. -/
def IsAny (name : String) (block : List Declaration) : Prop :=
  ∃ doc, block = [.alias ⟨name, .any, doc⟩]

/-- The names for `any` at a place: its path if it is a gap, and otherwise those inside its override,
if it has one. -/
def NodePlace.anyPaths (store : OverrideStore) (place : NodePlace) : List String :=
  match store.get? place.path with
  | some o => (o.declaration.rename place.node.name).anyPaths place.parent
  | none => if place.isGap store then [place.path] else []

/-! ## Constants -/

namespace Declaration

theorem listAnyPaths_append (path : String) (ds ds' : List Declaration) :
    listAnyPaths path (ds ++ ds') = listAnyPaths path ds ++ listAnyPaths path ds' := by
  induction ds with
  | nil => rfl
  | cons d ds ih => rw [List.cons_append, listAnyPaths, listAnyPaths, ih, List.append_assoc]

theorem listAnyPaths_singleton (path : String) (d : Declaration) :
    listAnyPaths path [d] = d.anyPaths path := by
  rw [listAnyPaths, listAnyPaths, List.append_nil]

theorem anyPaths_rename_withDoc (path name : String) (doc : Option String) (d : Declaration) :
    ((d.withDoc doc).rename name).anyPaths path = (d.rename name).anyPaths path := by
  cases d <;> rfl

end Declaration

section Places

variable {store : OverrideStore} {parent : String} {above : List String} {d : Define}

theorem NodePlace.anyPaths_sorted (parent : String) (above : List String)
    (plain : store.get? (qualified parent d.name) = none) :
    NodePlace.anyPaths store ⟨parent, above, d.sorted⟩ =
      if d.values.isEmpty && d.subkeys.isEmpty then [qualified parent d.name] else [] := by
  simp [NodePlace.anyPaths, NodePlace.path_sorted, NodePlace.isGap_sorted,
    OverrideStore.contains_eq_isSome_get?, plain]

def Schema.Define.anyPaths (store : OverrideStore) (parent : String) (above : List String)
    (d : Define) : List String :=
  (d.reached store parent above).flatMap (·.anyPaths store)

/-- A node without an override is a name for `any` itself, or leads to those below it. -/
theorem Schema.Define.anyPaths_eq (notBelow : ∀ path ∈ above, store.get? path = none)
    (plain : store.get? (qualified parent d.name) = none) :
    d.anyPaths store parent above =
      (if d.values.isEmpty && d.subkeys.isEmpty then [qualified parent d.name] else [])
        ++ (Schema.inOrder d.subkeys).flatMap
          (Define.anyPaths store (qualified parent d.name) (above ++ [qualified parent d.name])) := by
  rw [anyPaths, reached_eq notBelow, OverrideStore.contains_eq_isSome_get?, plain,
    List.flatMap_cons, NodePlace.anyPaths_sorted parent above plain]
  simp only [Option.isSome_none, Bool.false_eq_true, if_false, List.flatMap_assoc]
  rfl

end Places

theorem IsEnumerationOf.anyPaths {name parent : String} {values : List Schema.NamedOption}
    {decl : Declaration} (isEnumeration : IsEnumerationOf name values decl) :
    decl.anyPaths parent = [] := by
  obtain ⟨members, doc, things, rfl, _⟩ := isEnumeration
  rfl

mutual

/-- What a node becomes has the names for `any` of the places that are reached from the node on. -/
theorem NodeEmitted.listAnyPaths_eq {store : OverrideStore} {parent : String} {d : Define}
    {block : List Declaration} (above : List String) :
    NodeEmitted store parent d block → (∀ path ∈ above, store.get? path = none) →
      Declaration.listAnyPaths parent block = d.anyPaths store parent above
  | .overridden (o := o) doc isFound, notBelow => by
    rw [Declaration.listAnyPaths_singleton, Declaration.anyPaths_rename_withDoc, Define.anyPaths,
      Define.reached_eq notBelow, OverrideStore.contains_eq_isSome_get?, isFound]
    -- Nothing below the node is reached, and the place of the node has the names of the override.
    simp [NodePlace.anyPaths, NodePlace.path_sorted, Define.name_sorted, isFound]
  | .empty doc plain noValues noSubkeys, notBelow => by
    rw [Define.anyPaths_eq notBelow plain, noValues, noSubkeys]
    rfl
  | .leaf plain hasValues noSubkeys numbered, notBelow => by
    rw [Define.anyPaths_eq notBelow plain, Declaration.listAnyPaths_singleton, numbered.anyPaths,
      noSubkeys]
    simp [hasValues, Schema.inOrder]
  | .inner doc plain noValues hasSubkeys sorted below, notBelow => by
    rw [Define.anyPaths_eq notBelow plain, Declaration.listAnyPaths_singleton,
      Declaration.anyPaths, ← sorted.eq_inOrder,
      below.listAnyPaths_eq _ (notBelow_append notBelow plain)]
    simp [hasSubkeys]
  | .both doc plain hasValues hasSubkeys numbered sorted below, notBelow => by
    -- The enumeration has no part in the names for `any`.
    rw [Define.anyPaths_eq notBelow plain, ← sorted.eq_inOrder,
      ← below.listAnyPaths_eq _ (notBelow_append notBelow plain)]
    simp [Declaration.listAnyPaths, Declaration.anyPaths, numbered.anyPaths, hasSubkeys]

theorem NodesEmitted.listAnyPaths_eq {store : OverrideStore} {parent : String} {ds : List Define}
    {body : List Declaration} (above : List String) :
    NodesEmitted store parent ds body → (∀ path ∈ above, store.get? path = none) →
      Declaration.listAnyPaths parent body = ds.flatMap (Define.anyPaths store parent above)
  | .nil _, _ => rfl
  | .cons here behind, notBelow => by
    rw [Declaration.listAnyPaths_append, List.flatMap_cons, here.listAnyPaths_eq above notBelow,
      behind.listAnyPaths_eq above notBelow]

end

/-- In the tree of constants the names for `any` are the gaps and those inside of overrides. -/
theorem TreeEmitted.anyPathsBelow_eq {document : Document} {store : OverrideStore} {root : String}
    {segment : List Declaration} (emitted : TreeEmitted document store root segment) :
    segment.flatMap Declaration.anyPathsBelow =
      (document.reachedPlaces store root).flatMap (·.anyPaths store) := by
  rw [Document.reachedPlaces, Define.filter_listPlaces, List.flatMap_assoc]
  rw [TreeEmitted] at emitted
  split at emitted
  next isEmpty =>
    rw [emitted, isEmpty]
    rfl
  next =>
    obtain ⟨things, body, sorted, nodes, rfl⟩ := emitted
    rw [List.flatMap_singleton, Declaration.anyPathsBelow, nodes.listAnyPaths_eq [] (by simp),
      sorted.eq_inOrder]
    rfl

/-! ## Builtin types and concepts -/

namespace Synth

variable {ctx : Context} {block : List Declaration}

/-- A builtin type that is missing is declared as `any`. -/
theorem IsBuiltinBlock.isAny {b : BuiltinType} (isBlock : IsBuiltinBlock ctx b block)
    (isGap : b.isGap ctx.overrides ctx.config) : IsAny b.name block := by
  simp only [BuiltinType.isGap, OverrideStore.contains_eq_isSome_get?, Bool.and_eq_true,
    Bool.not_eq_true', Option.isSome_eq_false_iff, Option.isNone_iff_eq_none] at isGap
  obtain ⟨⟨plain, notNative⟩, notNumeric⟩ := isGap
  obtain ⟨⟨t, t', runs⟩, _⟩ := isBlock
  obtain ⟨_, u, _, runs⟩ := runs_findOverride_bind runs
  -- Of the ways in which the step can go only the last one is left.
  rw [plain] at runs
  simp only [notNative, Bool.false_eq_true, if_false] at runs
  obtain ⟨doc, u', _, runs⟩ := runs_bind.1 runs
  obtain ⟨decl, u'', made, runs⟩ := runs_bind.1 runs
  obtain ⟨rfl, _⟩ := runs_pure.1 runs
  simp only [plainBuiltin, notNumeric, Bool.false_eq_true, if_false] at made
  obtain ⟨_, v, _, made⟩ := runs_bind.1 made
  obtain ⟨rfl, _⟩ := runs_pure.1 made
  exact ⟨doc, rfl⟩

/-- A concept that is missing is declared as `any`. -/
theorem conceptBlock_isAny {concept : Concept}
    (isBlock : IsBlock (conceptDeclarations ctx concept) concept.name block)
    (isGap : concept.isGap ctx.overrides) : IsAny concept.name block := by
  obtain ⟨⟨t, t', runs⟩, _⟩ := isBlock
  obtain ⟨doc, u, _, runs⟩ := runs_bind.1 runs
  rw [documentedConcept] at runs
  rw [Concept.isGap] at isGap
  split at isGap
  next isProse =>
    simp only [isProse] at runs
    obtain ⟨_, u', _, runs⟩ := runs_findOverride_bind runs
    have plain : ctx.overrides.get? concept.name = none := by
      simpa [OverrideStore.contains_eq_isSome_get?] using isGap
    rw [plain] at runs
    obtain ⟨_, v, _, runs⟩ := runs_bind.1 runs
    obtain ⟨rfl, _⟩ := runs_pure.1 runs
    exact ⟨doc, rfl⟩
  next => cases isGap

end Synth

/-! ## The output -/

theorem InBlocks.imp {α : Type} [Schema.Ordered α] {source : List α}
    {IsBlock IsBlock' : α → List Declaration → Prop} {segment : List Declaration}
    (inBlocks : InBlocks source IsBlock segment)
    (weaker : ∀ x block, IsBlock x block → IsBlock' x block) :
    InBlocks source IsBlock' segment := by
  obtain ⟨things, blocks, sorted, each, same⟩ := inBlocks
  exact ⟨things, blocks, sorted, each.imp weaker, same⟩

open Synth in
/-- The block of a builtin type or a concept that is a gap makes its name one for `any`. Among the
constants the names for `any` are those of the gaps, in order, and those inside overrides. -/
structure GapsFilled (ctx : Context) (made : Segments) : Prop where
  builtins :
    InBlocks ctx.document.builtinTypes
      (fun b block => IsBuiltinBlock ctx b block ∧
        (b.isGap ctx.overrides ctx.config → IsAny b.name block))
      made.builtins
  tree : TreeEmitted ctx.document ctx.overrides ctx.config.constantsRoot made.defines
  nodes :
    made.defines.flatMap Declaration.anyPathsBelow =
      (ctx.document.reachedPlaces ctx.overrides ctx.config.constantsRoot).flatMap
        (·.anyPaths ctx.overrides)
  concepts :
    InBlocks ctx.document.concepts
      (fun concept block => IsBlock (conceptDeclarations ctx concept) concept.name block ∧
        (concept.isGap ctx.overrides → IsAny concept.name block))
      made.concepts

/-- A run fills all gaps, category by category. -/
theorem Synth.segments_fill_gaps {ctx : Context} {made : Segments} {s s' : Session}
    (runs : Runs (segments ctx) s made s') : GapsFilled ctx made := by
  obtain ⟨t₁, t₂, t₃, t₄, t₅, builtins, constants, _, _, concepts, _⟩ := runs_segments ctx runs
  have emitted := constants_emitted constants
  exact
    { builtins := (builtins_blocks builtins).imp fun b block isBlock => ⟨isBlock, isBlock.isAny⟩
      tree := emitted
      nodes := emitted.anyPathsBelow_eq
      concepts := (concepts_blocks concepts).imp fun concept block isBlock =>
        ⟨isBlock, conceptBlock_isAny isBlock⟩ }

/-- The advisories of a run on missing definitions are the gaps of the document, in order and each
once, and in the output each of them is a name for `any`. -/
theorem generate_reports_gaps {document : Document} {store : OverrideStore} {config : Config}
    {g : Generation} (success : generate document store config = .ok g) :
    g.report.advisories.filter Advisory.isGap = document.gaps store config ∧
      ∃ made : Segments, g.declarations = made.declarations ∧ g.report.counts = made.counts ∧
        GapsFilled (.of document store config) made := by
  refine ⟨(generate_notes success).1, ?_⟩
  obtain ⟨_, made, session, runs, rfl⟩ := generate_eq_ok.1 success
  exact ⟨made, rfl, rfl, Synth.segments_fill_gaps runs⟩

/-- What is missing in the document of the quarry. The node below the override is not reached. -/
def quarryGaps : List Advisory :=
  [.missingBuiltinDefinition "Picture", .missingConstantDefinition "defines.rock.soft",
    .missingConstantDefinition "defines.rock.hard", .missingConceptDefinition "Ore"]

theorem quarryDocument_reports_gaps :
    ∃ store g, OverrideStore.ofEntries quarryEntries = .ok store ∧
      generate quarryDocument store {} = .ok g ∧ quarryDocument.gaps store {} = quarryGaps ∧
      g.report.advisories.filter Advisory.isGap = quarryDocument.gaps store {} ∧
      ∃ made : Segments, g.declarations = made.declarations ∧ g.report.counts = made.counts ∧
        GapsFilled (.of quarryDocument store {}) made := by
  obtain ⟨store, made, isOk, gaps⟩ : ∃ store, OverrideStore.ofEntries quarryEntries = .ok store ∧
      (generate quarryDocument store {}).isOk ∧ quarryDocument.gaps store {} = quarryGaps :=
    ⟨⟨_, _, _, _⟩, rfl, by decide +kernel, by decide +kernel⟩
  obtain ⟨g, success⟩ := exists_generation_of_isOk isOk
  exact ⟨store, g, made, success, gaps, generate_reports_gaps success⟩

end Typings

import Typings.Proofs.AskedOverrides
import Typings.Proofs.Layout
import Typings.Proofs.OrderIndependence

/-! # The emitted tree of constants

The namespace of the constants has the form of the tree in the document, with the nodes of each level
in their order. References to constants are looked up in the tree of the document, so that they lead
to what is declared as long as no override stands for a part of the tree.

* `NodeEmitted`, `NodesEmitted`: what a node, or a level of the tree, becomes.
* `Declaration.pathsBelow`: the qualified names below a namespace.
* `Synth.nodeDeclarations_emitted`: the step for a node makes what the node becomes.
* `NodesEmitted.mem_paths`: the names below a level are those of the document.
* `generate_emits_tree`: both of the output of a run.
-/

namespace Typings

open Schema (Define Document NamedOption SortedFrom qualified)

/-! ## What nodes become -/

/-- The declaration is an enumeration of the values in order, numbered from zero. -/
def IsEnumerationOf (name : String) (values : List NamedOption) (decl : Declaration) : Prop :=
  ∃ members doc things, decl = .enumeration ⟨name, members, doc⟩ ∧ SortedFrom values things ∧
    members.map (·.name) = things.map (·.name) ∧
    members.map (·.value) = (List.range values.length).map Int.ofNat

mutual

/-- What a node below `parent` becomes: what its override declares, if it has one; otherwise an
enumeration if it has values, a namespace if it has subkeys, and `any` if it has neither. -/
inductive NodeEmitted (store : OverrideStore) : String → Define → List Declaration → Prop
  | overridden {parent : String} {d : Define} {o : Override} (doc : Option String)
      (isFound : store.get? (qualified parent d.name) = some o) :
      NodeEmitted store parent d [(o.declaration.withDoc doc).rename d.name]
  | empty {parent : String} {d : Define} (doc : Option String)
      (plain : store.get? (qualified parent d.name) = none) (noValues : d.values = [])
      (noSubkeys : d.subkeys = []) : NodeEmitted store parent d [.alias ⟨d.name, .any, doc⟩]
  | leaf {parent : String} {d : Define} {enumeration : Declaration}
      (plain : store.get? (qualified parent d.name) = none) (hasValues : d.values ≠ [])
      (noSubkeys : d.subkeys = []) (numbered : IsEnumerationOf d.name d.values enumeration) :
      NodeEmitted store parent d [enumeration]
  | inner {parent : String} {d : Define} {things : List Define} {body : List Declaration}
      (doc : Option String) (plain : store.get? (qualified parent d.name) = none)
      (noValues : d.values = []) (hasSubkeys : d.subkeys ≠ [])
      (sorted : SortedFrom d.subkeys things)
      (below : NodesEmitted store (qualified parent d.name) things body) :
      NodeEmitted store parent d [.nameSpace d.name body doc]
  | both {parent : String} {d : Define} {enumeration : Declaration} {things : List Define}
      {body : List Declaration} (doc : Option String)
      (plain : store.get? (qualified parent d.name) = none) (hasValues : d.values ≠ [])
      (hasSubkeys : d.subkeys ≠ []) (numbered : IsEnumerationOf d.name d.values enumeration)
      (sorted : SortedFrom d.subkeys things)
      (below : NodesEmitted store (qualified parent d.name) things body) :
      NodeEmitted store parent d [enumeration, .nameSpace d.name body doc]

/-- What the nodes of a level become, one after the other. -/
inductive NodesEmitted (store : OverrideStore) : String → List Define → List Declaration → Prop
  | nil (parent : String) : NodesEmitted store parent [] []
  | cons {parent : String} {d : Define} {ds : List Define} {block rest : List Declaration}
      (here : NodeEmitted store parent d block) (behind : NodesEmitted store parent ds rest) :
      NodesEmitted store parent (d :: ds) (block ++ rest)

end

/-! ## Names below a namespace -/

mutual

/-- The qualified names of a declaration below a path: its own, those of its members if it is an
enumeration, and those of the declarations in it if it is a namespace. -/
def Declaration.paths (path : String) : Declaration → List String
  | .nameSpace name body _ => qualified path name :: Declaration.listPaths (qualified path name) body
  | .enumeration decl =>
    qualified path decl.name ::
      decl.members.map fun member => qualified (qualified path decl.name) member.name
  | .interface decl => [qualified path decl.name]
  | .alias decl => [qualified path decl.name]
  | .const decl => [qualified path decl.name]

def Declaration.listPaths (path : String) : List Declaration → List String
  | [] => []
  | d :: ds => d.paths path ++ Declaration.listPaths path ds

end

/-- The qualified names below a namespace; other declarations have none. -/
def Declaration.pathsBelow : Declaration → List String
  | .nameSpace name body _ => Declaration.listPaths name body
  | _ => []

theorem Declaration.listPaths_append (path : String) (ds ds' : List Declaration) :
    listPaths path (ds ++ ds') = listPaths path ds ++ listPaths path ds' := by
  induction ds with
  | nil => rfl
  | cons d ds ih => rw [List.cons_append, listPaths, listPaths, ih, List.append_assoc]

/-! ## The steps -/

namespace Synth

variable {ctx : Context} {s s' : Session}

theorem valueMember_named {path : String} {value : NamedOption × Nat} {member : EnumMember}
    (runs : Runs (valueMember ctx path value) s member s') :
    member.name = value.1.name ∧ member.value = Int.ofNat value.2 := by
  obtain ⟨doc, t, _, runs⟩ := runs_bind.1 runs
  obtain ⟨rfl, _⟩ := runs_pure.1 runs
  exact ⟨rfl, rfl⟩

theorem valueEnumeration_numbered {path name : String} {values : List NamedOption}
    {doc : Option String} {decl : Declaration}
    (runs : Runs (valueEnumeration ctx path name values doc) s decl s') :
    IsEnumerationOf name values decl := by
  obtain ⟨members, t, made, runs⟩ := runs_bind.1 runs
  obtain ⟨rfl, _⟩ := runs_pure.1 runs
  have names : ((Schema.inOrder values).zipIdx.map (·.1)).map (·.name) = members.map (·.name) := by
    rw [List.map_map]
    exact map_eq_of_forall₂ made.forall₂ fun value member ⟨u, u', runs⟩ =>
      (valueMember_named runs).1.symm
  have numbers : ((Schema.inOrder values).zipIdx.map (·.2)).map Int.ofNat =
      members.map (·.value) := by
    rw [List.map_map]
    exact map_eq_of_forall₂ made.forall₂ fun value member ⟨u, u', runs⟩ =>
      (valueMember_named runs).2.symm
  rw [List.zipIdx_map_fst] at names
  rw [List.zipIdx_map_snd, (Schema.inOrder_perm values).length_eq, ← List.range_eq_range'] at numbers
  exact ⟨members, doc, _, rfl, Schema.inOrder_sortedFrom values, names.symm, numbers.symm⟩

/-- The nodes of a level become what each of them becomes, one after the other. -/
theorem nodes_emitted {parent : String} {ds : List Define} {blocks : List (List Declaration)}
    (runs : Runs (each (nodeDeclarations ctx parent) ds) s blocks s')
    (emitted : ∀ d ∈ ds, ∀ t block t', Runs (nodeDeclarations ctx parent d) t block t' →
      NodeEmitted ctx.overrides parent d block) :
    NodesEmitted ctx.overrides parent ds blocks.flatten := by
  induction ds generalizing s blocks with
  | nil =>
    obtain ⟨rfl, _⟩ := runs_pure.1 runs
    exact .nil parent
  | cons d ds ih =>
    obtain ⟨block, t, rest, here, behind, rfl⟩ := runs_each_cons.1 runs
    have first := emitted d List.mem_cons_self s block t here
    have others := ih behind fun d isMember => emitted d (List.mem_cons_of_mem _ isMember)
    exact .cons first others

/-- A node becomes an enumeration exactly if it has values. -/
theorem leaf_emitted {path name : String} {values : List NamedOption} {doc : Option String}
    {leaf : List Declaration}
    (runs : Runs
      (if values.isEmpty then pure [] else
        (fun d => [d]) <$> valueEnumeration ctx path name values doc) s leaf s') :
    values = [] ∧ leaf = [] ∨
      values ≠ [] ∧ ∃ decl, leaf = [decl] ∧ IsEnumerationOf name values decl := by
  cases values with
  | nil => exact .inl ⟨rfl, (runs_pure.1 runs).1.symm⟩
  | cons value values =>
    obtain ⟨decl, made, rfl⟩ := runs_map.1 runs
    exact .inr ⟨List.cons_ne_nil _ _, decl, rfl, valueEnumeration_numbered made⟩

theorem inner_emitted {path name : String} {subkeys : List Define} {doc : Option String}
    {inner : List Declaration}
    (runs : Runs
      (if subkeys.isEmpty then pure [] else
        (fun body : List (List Declaration) => [Declaration.nameSpace name body.flatten doc])
          <$> inOrder (nodeSteps ctx path subkeys)) s inner s')
    (emitted : ∀ d ∈ subkeys, ∀ t block t', Runs (nodeDeclarations ctx path d) t block t' →
      NodeEmitted ctx.overrides path d block) :
    subkeys = [] ∧ inner = [] ∨
      subkeys ≠ [] ∧ ∃ things body, inner = [.nameSpace name body doc] ∧
        SortedFrom subkeys things ∧ NodesEmitted ctx.overrides path things body := by
  rw [inOrder_nodeSteps] at runs
  cases subkeys with
  | nil => exact .inl ⟨rfl, (runs_pure.1 runs).1.symm⟩
  | cons d ds =>
    obtain ⟨blocks, made, rfl⟩ := runs_map.1 runs
    have below := nodes_emitted made fun d isMember => emitted d (Schema.mem_inOrder.1 isMember)
    exact .inr ⟨List.cons_ne_nil _ _, _, _, rfl, Schema.inOrder_sortedFrom _, below⟩

/-- By induction over the tree, every node becomes what it should. -/
theorem nodeDeclarations_emitted {parent : String} {d : Define} {block : List Declaration}
    (runs : Runs (nodeDeclarations ctx parent d) s block s') :
    NodeEmitted ctx.overrides parent d block := by
  -- The nodes below are at a longer path, so the parent changes with the node.
  induction d using Schema.Define.induct generalizing parent block s s' with
  | node name order description values subkeys ih =>
    rw [nodeDeclarations] at runs
    obtain ⟨doc, t₁, _, runs⟩ := runs_bind.1 runs
    obtain ⟨_, t₂, _, runs⟩ := runs_findOverride_bind runs
    cases isFound : ctx.overrides.get? (qualified parent name) with
    | some o =>
      simp only [isFound] at runs
      obtain ⟨decl, t₃, stands, runs⟩ := runs_bind.1 runs
      obtain ⟨rfl, _⟩ := runs_pure.1 runs
      rw [overriddenNode] at stands
      split at stands
      · obtain ⟨rfl, _⟩ := runs_pure.1 stands
        exact .overridden _ isFound
      · exact (not_runs_throw stands).elim
    | none =>
      simp only [isFound, ← ite_bind] at runs
      obtain ⟨leaf, t₃, leafMade, runs⟩ := runs_bind.1 runs
      obtain ⟨inner, t₄, innerMade, runs⟩ := runs_bind.1 runs
      have below := inner_emitted innerMade fun d isMember t block t' => ih d isMember
      rcases leaf_emitted leafMade with ⟨rfl, rfl⟩ | ⟨hasValues, enumeration, rfl, numbered⟩ <;>
        rcases below with ⟨rfl, rfl⟩ | ⟨hasSubkeys, things, body, rfl, sorted, below⟩
      · obtain ⟨_, t₅, _, runs⟩ := runs_bind.1 runs
        obtain ⟨rfl, _⟩ := runs_pure.1 runs
        exact .empty doc isFound rfl rfl
      · rw [if_neg (by simpa using hasSubkeys)] at runs
        obtain ⟨rfl, _⟩ := runs_pure.1 runs
        exact .inner _ isFound rfl hasSubkeys sorted below
      · rw [if_neg (by simpa using hasValues)] at runs
        obtain ⟨rfl, _⟩ := runs_pure.1 runs
        exact .leaf isFound hasValues rfl numbered
      · rw [if_neg (by simpa using fun _ => hasSubkeys)] at runs
        obtain ⟨rfl, _⟩ := runs_pure.1 runs
        exact .both _ isFound hasValues hasSubkeys numbered sorted below

end Synth

/-! ## Names -/

/-- The paths of a node, one step down the tree. -/
theorem Schema.Define.mem_paths {parent path : String} {d : Define} :
    path ∈ d.paths parent ↔ path = qualified parent d.name ∨
      path ∈ d.values.map (fun value => qualified (qualified parent d.name) value.name) ∨
      path ∈ Define.listPaths (qualified parent d.name) d.subkeys := by
  cases d
  rw [Define.paths, List.mem_append, List.mem_append, List.mem_singleton, or_assoc]
  rfl

theorem IsEnumerationOf.mem_paths {name parent path : String} {values : List NamedOption}
    {decl : Declaration} (isEnumeration : IsEnumerationOf name values decl) :
    path ∈ decl.paths parent ↔ path = qualified parent name ∨
      path ∈ values.map fun value => qualified (qualified parent name) value.name := by
  obtain ⟨members, doc, things, rfl, sorted, sameNames, _⟩ := isEnumeration
  have same : members.map (fun member => qualified (qualified parent name) member.name) =
      things.map fun value => qualified (qualified parent name) value.name := by
    have joined := congrArg (List.map (qualified (qualified parent name))) sameNames
    rwa [List.map_map, List.map_map] at joined
  rw [Declaration.paths, same, List.mem_cons, (sorted.perm.map _).mem_iff]

theorem Schema.SortedFrom.mem_listPaths {ds things : List Define} (sorted : SortedFrom ds things)
    {parent path : String} :
    path ∈ Define.listPaths parent things ↔ path ∈ Define.listPaths parent ds := by
  rw [Define.listPaths_eq_flatMap, Define.listPaths_eq_flatMap, List.mem_flatMap, List.mem_flatMap]
  simp only [sorted.perm.mem_iff]

/-- No node that a run reaches from the first one has an override. -/
def Schema.Define.IsPlain (store : OverrideStore) (parent : String) (d : Define) : Prop :=
  ∀ path node, d.Reaches store parent path node → store.get? path = none

instance (store : OverrideStore) (parent : String) (d : Define) :
    Decidable (d.IsPlain store parent) :=
  decidable_of_iff (∀ path ∈ d.reachedPaths store parent, store.get? path = none) <| by
    simp only [Define.mem_reachedPaths, forall_exists_index, Define.IsPlain]

theorem Schema.Define.IsPlain.below {store : OverrideStore} {parent : String} {d sub : Define}
    (plain : d.IsPlain store parent) (isMember : sub ∈ d.subkeys) :
    sub.IsPlain store (qualified parent d.name) :=
  fun path node reaches =>
    plain path node (.deeper (plain _ _ (.here parent d)) isMember reaches)

mutual

/-- Without overrides the names of what a node becomes are those of the node. -/
theorem NodeEmitted.mem_paths {store : OverrideStore} {parent : String} {d : Define}
    {block : List Declaration} (path : String) :
    NodeEmitted store parent d block → d.IsPlain store parent →
      (path ∈ Declaration.listPaths parent block ↔ path ∈ d.paths parent)
  | .overridden _ isFound, plain => by
    rw [plain _ _ (.here parent d)] at isFound
    cases isFound
  | .empty _ _ noValues noSubkeys, _ => by
    simp [Define.mem_paths, noValues, noSubkeys, Declaration.listPaths, Declaration.paths,
      Define.listPaths]
  | .leaf _ _ noSubkeys numbered, _ => by
    simp [Define.mem_paths, noSubkeys, Declaration.listPaths, numbered.mem_paths, Define.listPaths]
  | .inner _ _ noValues _ sorted below, plain => by
    have names := below.mem_paths path fun sub isMember =>
      plain.below (sorted.perm.mem_iff.1 isMember)
    simp [Define.mem_paths, noValues, Declaration.listPaths, Declaration.paths, names,
      sorted.mem_listPaths]
  | .both _ _ _ _ numbered sorted below, plain => by
    have names := below.mem_paths path fun sub isMember =>
      plain.below (sorted.perm.mem_iff.1 isMember)
    simp only [Declaration.listPaths, Declaration.paths, List.append_nil, List.mem_append,
      List.mem_cons, numbered.mem_paths, names, sorted.mem_listPaths, Define.mem_paths]
    -- The enumeration and the namespace have the same name.
    tauto

/-- Without overrides, the declarations of a level have the paths of its nodes. -/
theorem NodesEmitted.mem_paths {store : OverrideStore} {parent : String} {ds : List Define}
    {body : List Declaration} (path : String) :
    NodesEmitted store parent ds body → (∀ d ∈ ds, d.IsPlain store parent) →
      (path ∈ Declaration.listPaths parent body ↔ path ∈ Define.listPaths parent ds)
  | .nil _, _ => Iff.rfl
  | .cons here behind, plain => by
    rw [Declaration.listPaths_append, Define.listPaths, List.mem_append, List.mem_append,
      here.mem_paths path (plain _ List.mem_cons_self),
      behind.mem_paths path fun d isMember => plain d (List.mem_cons_of_mem _ isMember)]

end

/-! ## The segment -/

/-- The constants become one namespace with what the nodes at the top become, or nothing. -/
def TreeEmitted (document : Document) (store : OverrideStore) (root : String)
    (segment : List Declaration) : Prop :=
  if document.defines = [] then segment = []
  else ∃ things body, SortedFrom document.defines things ∧ NodesEmitted store root things body ∧
    segment = [.nameSpace root body none]

/-- The segment of the constants holds the whole tree. -/
theorem Synth.constants_emitted {ctx : Context} {s s' : Session} {segment : List Declaration}
    (runs : Runs (constants ctx) s segment s') :
    TreeEmitted ctx.document ctx.overrides ctx.config.constantsRoot segment := by
  rw [constants] at runs
  rw [TreeEmitted]
  by_cases isEmpty : ctx.document.defines = []
  · rw [if_pos (List.isEmpty_iff.2 isEmpty)] at runs
    rw [if_pos isEmpty]
    exact (runs_pure.1 runs).1.symm
  · rw [if_neg fun empty => isEmpty (List.isEmpty_iff.1 empty)] at runs
    rw [if_neg isEmpty]
    obtain ⟨blocks, t, made, runs⟩ := runs_bind.1 runs
    obtain ⟨rfl, _⟩ := runs_pure.1 runs
    rw [inOrder_nodeSteps] at made
    exact ⟨_, _, Schema.inOrder_sortedFrom _,
      nodes_emitted made fun _ _ _ _ _ runs => nodeDeclarations_emitted runs, rfl⟩

/-- Where nothing has an override, the emitted tree has the names of the document and no others. -/
theorem TreeEmitted.mem_pathsBelow {document : Document} {store : OverrideStore} {root : String}
    {segment : List Declaration} (emitted : TreeEmitted document store root segment)
    (plain : ∀ d ∈ document.defines, d.IsPlain store root) (path : String) :
    path ∈ segment.flatMap Declaration.pathsBelow ↔ path ∈ document.definePaths root := by
  rw [Document.definePaths]
  rw [TreeEmitted] at emitted
  split at emitted
  next isEmpty =>
    rw [emitted, isEmpty]
    rfl
  next =>
    obtain ⟨things, body, sorted, nodes, rfl⟩ := emitted
    have names := nodes.mem_paths path fun d isMember =>
      plain d (sorted.perm.mem_iff.1 isMember)
    rw [List.flatMap_singleton, Declaration.pathsBelow, names, sorted.mem_listPaths]

/-- Without overrides of nodes the constants have the form of the tree in the document, and the names
that stand for constants are those of what is declared. -/
theorem generate_emits_tree {document : Document} {store : OverrideStore} {config : Config}
    {g : Generation} (success : generate document store config = .ok g)
    (plain : ∀ d ∈ document.defines, d.IsPlain store config.constantsRoot) :
    ∃ made : Segments, g.declarations = made.declarations ∧ g.report.counts = made.counts ∧
      TreeEmitted document store config.constantsRoot made.defines ∧
      ∀ path,
        (path ∈ made.defines.flatMap Declaration.pathsBelow ↔
          path ∈ document.definePaths config.constantsRoot) ∧
        (path ∈ made.defines.flatMap Declaration.pathsBelow ↔
          (Context.of document store config).isDefine path) := by
  obtain ⟨_, made, session, runs, rfl⟩ := generate_eq_ok.1 success
  obtain ⟨t₁, t₂, t₃, t₄, t₅, _, constants, _⟩ := Synth.runs_segments _ runs
  have emitted := Synth.constants_emitted constants
  have names := emitted.mem_pathsBelow plain
  refine ⟨made, rfl, rfl, emitted, fun path => ⟨names path, (names path).trans ?_⟩⟩
  exact List.contains_iff_mem.symm

/-- A document with a node that is both an enumeration and a namespace, and one that is neither. -/
def signalDocument : Document where
  application := "factorio"
  stage := "runtime"
  apiVersion := 3
  builtinTypes := [⟨"uint", 0, ""⟩]
  defines :=
    [.node "signal" 1 "" [⟨"red", 1, ""⟩, ⟨"green", 0, ""⟩] [.node "kind" 0 "" [] []],
      .node "track" 0 "" [] [.node "signal" 0 "" [⟨"red", 0, ""⟩] []]]

def signalEntries : List OverrideEntry :=
  [⟨.alias { name := "uint", ty := .keyword .number }, none⟩]

theorem signalDocument_emitted :
    ∃ store g, OverrideStore.ofEntries signalEntries = .ok store ∧
      generate signalDocument store {} = .ok g ∧
      (∀ d ∈ signalDocument.defines, d.IsPlain store "defines") ∧
      ∃ made : Segments, g.declarations = made.declarations ∧ g.report.counts = made.counts ∧
        TreeEmitted signalDocument store "defines" made.defines ∧
        ∀ path,
          (path ∈ made.defines.flatMap Declaration.pathsBelow ↔
            path ∈ signalDocument.definePaths "defines") ∧
          (path ∈ made.defines.flatMap Declaration.pathsBelow ↔
            (Context.of signalDocument store {}).isDefine path) := by
  obtain ⟨store, made, isOk, plain⟩ : ∃ store, OverrideStore.ofEntries signalEntries = .ok store ∧
      (generate signalDocument store {}).isOk ∧
      ∀ d ∈ signalDocument.defines, d.IsPlain store "defines" :=
    ⟨⟨_, _, _, _⟩, rfl, by decide +kernel, by decide +kernel⟩
  obtain ⟨g, success⟩ := exists_generation_of_isOk isOk
  exact ⟨store, g, made, success, plain, generate_emits_tree success plain⟩

end Typings

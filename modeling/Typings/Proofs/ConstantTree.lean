import Typings.Proofs.Entities

/-! # The tree of constants

An override of a node replaces the node with all that is below it, so the run only reaches the nodes
that are below no override.

* `Schema.Define.Reaches`: the nodes that a run reaches, with their paths.
* `Synth.nodeDeclarations_settles`: the step for a node succeeds when the overrides of all nodes
  that it reaches fit.
-/

namespace Typings

open Schema (Define NamedOption)

/-! ## Nodes that are reached -/

/-- A run for the first node below `parent` reaches the second node, at the path: no node on the way
    has an override. -/
inductive Schema.Define.Reaches (store : OverrideStore) : String → Define → String → Define → Prop
  | here (parent : String) (d : Define) : Reaches store parent d (Schema.qualified parent d.name) d
  | deeper {parent path : String} {d sub node : Define}
      (plain : store.get? (Schema.qualified parent d.name) = none) (isMember : sub ∈ d.subkeys)
      (reaches : Reaches store (Schema.qualified parent d.name) sub path node) :
      Reaches store parent d path node

/-- What holds of all reached nodes holds of the node itself and, unless it has an override, of what
is reached below. -/
theorem forall_reaches {store : OverrideStore} {parent : String} {d : Define}
    {P : String → Define → Prop} :
    (∀ path node, d.Reaches store parent path node → P path node) ↔
      P (Schema.qualified parent d.name) d ∧
        (store.get? (Schema.qualified parent d.name) = none → ∀ sub ∈ d.subkeys, ∀ path node,
          sub.Reaches store (Schema.qualified parent d.name) path node → P path node) := by
  constructor
  · intro holds
    refine ⟨holds _ _ (.here parent d), fun plain sub isMember path node reaches => ?_⟩
    exact holds path node (.deeper plain isMember reaches)
  · rintro ⟨here, below⟩ path node reaches
    cases reaches with
    | here => exact here
    | deeper plain isMember reaches => exact below plain _ isMember path node reaches

namespace Synth

variable (ctx : Context)

/-- The override of the node is one that can stand for it, if there is one. -/
def NodeFits (store : OverrideStore) (path : String) (node : Define) : Prop :=
  store.Allows path [.nameSpace] ∧
    ∀ o, store.get? path = some o →
      fitsNode o.declaration.kind (!node.values.isEmpty) (!node.subkeys.isEmpty)

mutual

/-- The overrides that stand for the node and for those below it. -/
def overriddenNodes (ctx : Context) (parent : String) : Define → List String
  | .node name _ _ _ subkeys =>
    let path := Schema.qualified parent name
    lookedUp ctx path
      ++ if ctx.overrides.contains path then [] else overriddenNodesOf ctx path subkeys

def overriddenNodesOf (ctx : Context) (parent : String) : List Define → List String
  | [] => []
  | d :: ds => overriddenNodes ctx parent d ++ overriddenNodesOf ctx parent ds

end

theorem overriddenNodesOf_eq_flatMap (parent : String) (ds : List Define) :
    overriddenNodesOf ctx parent ds = ds.flatMap (overriddenNodes ctx parent) := by
  induction ds with
  | nil => rw [overriddenNodesOf, List.flatMap_nil]
  | cons d ds ih => rw [overriddenNodesOf, ih, List.flatMap_cons]

/-! ## The steps -/

theorem nodeSteps_eq_map (parent : String) (ds : List Define) :
    nodeSteps ctx parent ds =
      ds.map fun d => ⟨Schema.Ordered.order d, nodeDeclarations ctx parent d⟩ := by
  induction ds with
  | nil => rw [nodeSteps, List.map_nil]
  | cons d ds ih =>
    rw [nodeSteps, ih]
    rfl

theorem inOrder_nodeSteps (parent : String) (ds : List Define) :
    inOrder (nodeSteps ctx parent ds) =
      each (nodeDeclarations ctx parent) (Schema.inOrder ds) := by
  rw [nodeSteps_eq_map, inOrder_placed]

theorem overriddenNode_settles (o : Override) (path name : String) (hasValues hasSubkeys : Bool)
    (doc : Option String) (remarks : List String) :
    Settles (overriddenNode o path name hasValues hasSubkeys doc)
      (fitsNode o.declaration.kind hasValues hasSubkeys) [] [] remarks := by
  rw [overriddenNode]
  split
  next fits => exact (Settles.pure _).congr (by simp [fits])
  next misfits => exact ⟨fun _ => (SucceedsIff.throw _).congr (by simp [misfits]), .throw _⟩

theorem valueEnumeration_renders (path name : String) (values : List NamedOption)
    (doc : Option String) :
    Renders (valueEnumeration ctx path name values doc) (values.map (·.description)) := by
  refine .bind (.each fun value isMember => ?_) fun _ => .pure _
  refine ((describe_fromSchema ctx _ _).renders fun known => ?_).bind fun _ => .pure _
  have isValue : value.1 ∈ values := by
    rw [← Schema.mem_inOrder, ← List.zipIdx_map_fst 0 (Schema.inOrder values)]
    exact List.mem_map_of_mem isMember
  exact allKnown_map.1 known value.1 isValue

theorem leaf_renders (path name : String) (values : List NamedOption) (doc : Option String) :
    Renders
      (if values.isEmpty then pure [] else
        (fun d => [d]) <$> valueEnumeration ctx path name values doc)
      (values.map (·.description)) := by
  split
  · exact .pure _
  · exact (valueEnumeration_renders ctx path name values doc).map _

/-- The nodes of a level settle if each of them does, as sorting them only changes the order. -/
theorem children_settles (path name : String) (subkeys : List Define) (doc : Option String)
    {p : Define → Prop}
    (settles : ∀ d ∈ subkeys,
      Settles (nodeDeclarations ctx path d) (p d) (overriddenNodes ctx path d) [] d.remarks) :
    Settles
      (if subkeys.isEmpty then pure [] else
        (fun body : List (List Declaration) => [Declaration.nameSpace name body.flatten doc])
          <$> inOrder (nodeSteps ctx path subkeys))
      (∀ d ∈ subkeys, p d) (overriddenNodesOf ctx path subkeys) []
      (Define.listRemarks subkeys) := by
  rw [overriddenNodesOf_eq_flatMap, Define.listRemarks_eq_flatMap, inOrder_nodeSteps]
  cases subkeys with
  | nil => exact (Settles.pure _).congr (by simp)
  | cons d ds =>
    have children := Settles.eachInOrder settles
    rw [List.flatMap_eq_nil_iff.2 fun _ _ => rfl] at children
    exact children.map _

theorem allKnown_node {name description : String} {order : Nat} {values : List NamedOption}
    {subkeys : List Define}
    (known : AllKnown (Define.node name order description values subkeys).remarks) :
    AllKnown [description] ∧ AllKnown (values.map (·.description)) ∧
      AllKnown (Define.listRemarks subkeys) := by
  simp only [Define.remarks, allKnown_append, allKnown_cons] at known
  obtain ⟨⟨described, values⟩, subkeys⟩ := known
  exact ⟨allKnown_cons.2 ⟨described, allKnown_nil⟩, values, subkeys⟩

/-- The step for a node succeeds when the overrides of all nodes that it reaches fit. -/
theorem nodeDeclarations_settles (parent : String) (d : Define) :
    Settles (nodeDeclarations ctx parent d)
      (∀ path node, d.Reaches ctx.overrides parent path node → NodeFits ctx.overrides path node)
      (overriddenNodes ctx parent d) [] d.remarks := by
  -- The nodes below are at a longer path, so the parent changes with the node.
  induction d using Schema.Define.induct generalizing parent with
  | node name order description values subkeys ih =>
    rw [nodeDeclarations, overriddenNodes, OverrideStore.contains_eq_isSome_get?, forall_reaches,
      NodeFits, and_assoc]
    refine .after (describeEntity_renders ctx _ _ [] [] fun known => (allKnown_node known).1)
      fun doc => .lookupThen ctx fun _ => ?_
    dsimp only [Define.name, Define.values, Define.subkeys]
    cases ctx.overrides.get? (Schema.qualified parent name) with
    | some o =>
      -- What is below the node is not looked at.
      have stands := overriddenNode_settles o (Schema.qualified parent name) name
        (!values.isEmpty) (!subkeys.isEmpty) doc
        (Define.node name order description values subkeys).remarks
      exact (stands.before fun _ => .pure _).congr (by simp)
    | none =>
      have leaf := leaf_renders ctx (Schema.qualified parent name) name values doc
      have children := children_settles ctx (Schema.qualified parent name) name subkeys
        (if values.isEmpty then doc else none) fun d isMember => ih d isMember _
      simp only [← ite_bind]
      refine Settles.congr (.after (leaf.mono fun known => (allKnown_node known).2.1) fun leaf =>
        (children.mono fun known => (allKnown_node known).2.2).before fun inner => ?_) (by simp)
      split
      · exact .after (note_renders _) fun _ => .pure _
      · exact .pure _

/-- The tree of constants settles by its reached nodes. What is below an override does not matter.
-/
theorem constants_settles :
    Settles (constants ctx)
      (∀ d ∈ ctx.document.defines, ∀ path node,
        d.Reaches ctx.overrides ctx.config.constantsRoot path node →
          NodeFits ctx.overrides path node)
      (overriddenNodesOf ctx ctx.config.constantsRoot ctx.document.defines) []
      (Define.listRemarks ctx.document.defines) := by
  have settles := children_settles ctx ctx.config.constantsRoot ctx.config.constantsRoot
    ctx.document.defines none fun d _ => nodeDeclarations_settles ctx _ d
  simpa only [constants, map_eq_pure_bind] using settles

end Synth

end Typings

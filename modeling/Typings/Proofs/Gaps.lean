import Typings.Proofs.ConstantTree

/-! # Missing definitions

A document need not say what a builtin type, an empty node in the tree of constants or a concept in
prose is. Where no override says it either, there is a gap.

* `NodePlace`, `Schema.Define.places`: the nodes of the tree, each before those below it.
* `Schema.Document.reachedPlaces`: the nodes below no override, in order.
* `Schema.Document.gaps`: the gaps of a document, as the advisories on them.
* `Schema.Define.reached_eq`, `Schema.Define.gaps_node`: from a node to those below it.
-/

namespace Typings

open Schema (BuiltinType Concept Define Document NamedOption qualified)

/-! ## Places in the tree of constants -/

/-- A node of the tree of constants: the path it is below, and the paths of all nodes above it. -/
structure NodePlace where
  parent : String
  above : List String
  node : Define

namespace NodePlace

def path (place : NodePlace) : String :=
  qualified place.parent place.node.name

def isReached (store : OverrideStore) (place : NodePlace) : Bool :=
  place.above.all fun path => !store.contains path

def isGap (store : OverrideStore) (place : NodePlace) : Bool :=
  place.node.values.isEmpty && place.node.subkeys.isEmpty && !store.contains place.path

end NodePlace

namespace Schema

mutual

/-- The nodes from one node on down, each before those below it. -/
def Define.places (parent : String) (above : List String) : Define → List NodePlace
  | .node name order description values subkeys =>
    ⟨parent, above, .node name order description values subkeys⟩ ::
      Define.listPlaces (qualified parent name) (above ++ [qualified parent name]) subkeys

def Define.listPlaces (parent : String) (above : List String) : List Define → List NodePlace
  | [] => []
  | d :: ds => d.places parent above ++ Define.listPlaces parent above ds

end

mutual

/-- The node with the nodes of each level below it in ascending order. -/
def Define.sorted : Define → Define
  | .node name order description values subkeys =>
    .node name order description values (inOrder (Define.listSorted subkeys))

def Define.listSorted : List Define → List Define
  | [] => []
  | d :: ds => d.sorted :: Define.listSorted ds

end

/-- The nodes that are below no override, level by level in order and each before those below it. -/
def Document.reachedPlaces (document : Document) (store : OverrideStore) (root : String) :
    List NodePlace :=
  (Define.listPlaces root [] (inOrder (Define.listSorted document.defines))).filter
    (·.isReached store)

/-! ## Gaps -/

def BuiltinType.isGap (store : OverrideStore) (config : Config) (b : BuiltinType) : Bool :=
  !store.contains b.name && !config.isNative b.name && !config.isNumeric b.name

def Concept.isGap (store : OverrideStore) (concept : Concept) : Bool :=
  match concept.kind with
  | .prose => !store.contains concept.name
  | _ => false

/-- The definitions that are missing, in the order in which a run comes across them. -/
def Document.gaps (document : Document) (store : OverrideStore) (config : Config) :
    List Advisory :=
  ((inOrder document.builtinTypes).filter (·.isGap store config)).map
      (fun b => .missingBuiltinDefinition b.name)
    ++ ((document.reachedPlaces store config.constantsRoot).filter (·.isGap store)).map
      (fun place => .missingConstantDefinition place.path)
    ++ ((inOrder document.concepts).filter (·.isGap store)).map
      (fun concept => .missingConceptDefinition concept.name)

end Schema

/-! ## Reached places -/

def Schema.Define.reached (store : OverrideStore) (parent : String) (above : List String)
    (d : Define) : List NodePlace :=
  (d.sorted.places parent above).filter (·.isReached store)

section Reached

variable {store : OverrideStore}

theorem Schema.Define.listSorted_eq_map (ds : List Define) :
    Define.listSorted ds = ds.map Define.sorted := by
  induction ds with
  | nil => rfl
  | cons d ds ih => rw [listSorted, ih, List.map_cons]

theorem Schema.Define.listPlaces_eq_flatMap (parent : String) (above : List String)
    (ds : List Define) :
    Define.listPlaces parent above ds = ds.flatMap (Define.places parent above) := by
  induction ds with
  | nil => rw [listPlaces, List.flatMap_nil]
  | cons d ds ih => rw [listPlaces, ih, List.flatMap_cons]

theorem Schema.Define.order_sorted (d : Define) : d.sorted.order = d.order := by
  cases d
  rfl

theorem Schema.Define.name_sorted (d : Define) : d.sorted.name = d.name := by
  cases d
  rfl

theorem Schema.Define.filter_listPlaces (parent : String) (above : List String)
    (ds : List Define) :
    (Define.listPlaces parent above (Schema.inOrder (Define.listSorted ds))).filter
        (·.isReached store) =
      (Schema.inOrder ds).flatMap (Define.reached store parent above) := by
  rw [listPlaces_eq_flatMap, listSorted_eq_map,
    ← Schema.map_inOrder Define.sorted Define.order_sorted, List.flatMap_map, List.filter_flatMap]
  rfl

/-- The nodes above a node are above everything that is below it. -/
theorem Schema.Define.above_of_mem_places {parent path : String} {above : List String} {d : Define}
    {place : NodePlace} (isPlace : place ∈ d.places parent above) (isAbove : path ∈ above) :
    path ∈ place.above := by
  -- The paths above grow on the way down.
  induction d using Define.induct generalizing parent above with
  | node name order description values subkeys ih =>
    rw [places, List.mem_cons, listPlaces_eq_flatMap, List.mem_flatMap] at isPlace
    rcases isPlace with rfl | ⟨sub, isMember, isPlace⟩
    · exact isAbove
    · exact ih sub isMember isPlace (List.mem_append_left _ isAbove)

theorem Schema.Define.reached_eq_nil {parent path : String} {above : List String} {d : Define}
    (isAbove : path ∈ above) (overridden : store.contains path) :
    d.reached store parent above = [] := by
  refine List.filter_eq_nil_iff.2 fun place isPlace isReached => ?_
  have notOverridden := List.all_eq_true.1 isReached path (above_of_mem_places isPlace isAbove)
  rw [overridden] at notOverridden
  cases notOverridden

theorem NodePlace.path_sorted (parent : String) (above : List String) (d : Define) :
    NodePlace.path ⟨parent, above, d.sorted⟩ = qualified parent d.name := by
  rw [NodePlace.path, Define.name_sorted]

theorem NodePlace.isGap_sorted (parent : String) (above : List String) (d : Define) :
    NodePlace.isGap store ⟨parent, above, d.sorted⟩ =
      (d.values.isEmpty && d.subkeys.isEmpty && !store.contains (qualified parent d.name)) := by
  have sameSubkeys : d.sorted.subkeys.isEmpty = d.subkeys.isEmpty := by
    cases d with
    | node name order description values subkeys =>
      rw [Define.sorted, Define.subkeys, Define.listSorted_eq_map,
        (Schema.inOrder_perm _).isEmpty_eq, List.isEmpty_map, Define.subkeys]
  have sameValues : d.sorted.values = d.values := by
    cases d
    rfl
  rw [NodePlace.isGap, NodePlace.path_sorted, sameValues, sameSubkeys]

theorem notBelow_append {path : String} {above : List String}
    (notBelow : ∀ path ∈ above, store.get? path = none) (plain : store.get? path = none) :
    ∀ path' ∈ above ++ [path], store.get? path' = none := by
  intro path' isAbove
  rcases List.mem_append.1 isAbove with isAbove | isAbove
  · exact notBelow path' isAbove
  · rwa [List.mem_singleton.1 isAbove]

/-- From a node that is reached, a run goes on to the nodes below unless the node has an override. -/
theorem Schema.Define.reached_eq {parent : String} {above : List String} {d : Define}
    (notBelow : ∀ path ∈ above, store.get? path = none) :
    d.reached store parent above = ⟨parent, above, d.sorted⟩ ::
      if store.contains (qualified parent d.name) then [] else
        (Schema.inOrder d.subkeys).flatMap
          (Define.reached store (qualified parent d.name) (above ++ [qualified parent d.name])) := by
  have isReached : NodePlace.isReached store ⟨parent, above, d.sorted⟩ := by
    refine List.all_eq_true.2 fun path isAbove => ?_
    rw [OverrideStore.contains_eq_isSome_get?, notBelow path isAbove]
    rfl
  cases d with
  | node name order description values subkeys =>
    rw [Define.sorted] at isReached ⊢
    rw [reached, Define.sorted, places, List.filter_cons_of_pos isReached, filter_listPlaces,
      Define.name, Define.subkeys]
    split
    next overridden =>
      -- The override is above all nodes that are below the node.
      rw [List.flatMap_eq_nil_iff.2 fun sub _ => ?_]
      exact reached_eq_nil (List.mem_append_right above (List.mem_singleton_self _)) overridden
    next => rfl

def Schema.Define.gaps (store : OverrideStore) (parent : String) (above : List String) (d : Define) :
    List Advisory :=
  ((d.reached store parent above).filter (·.isGap store)).map
    fun place => .missingConstantDefinition place.path

/-- The gaps of a node are its own or those below it. An override of the node hides both. -/
theorem Schema.Define.gaps_node {parent name description : String}
    {above : List String} {order : Nat} {values : List NamedOption} {subkeys : List Define}
    (notBelow : ∀ path ∈ above, store.get? path = none) :
    Define.gaps store parent above (.node name order description values subkeys) =
      if store.contains (qualified parent name) then [] else
        (Schema.inOrder subkeys).flatMap
            (Define.gaps store (qualified parent name) (above ++ [qualified parent name]))
          ++ if values.isEmpty && subkeys.isEmpty then
              [.missingConstantDefinition (qualified parent name)] else [] := by
  have isGap : NodePlace.isGap store
      ⟨parent, above, (Define.node name order description values subkeys).sorted⟩ =
        (values.isEmpty && subkeys.isEmpty && !store.contains (qualified parent name)) :=
    NodePlace.isGap_sorted parent above _
  rw [gaps, reached_eq notBelow, Define.name, Define.subkeys]
  split
  next overridden =>
    rw [overridden, Bool.not_true, Bool.and_false] at isGap
    rw [List.filter_cons_of_neg (by simp [isGap])]
    rfl
  next notOverridden =>
    rw [Bool.eq_false_iff.2 notOverridden, Bool.not_false, Bool.and_true] at isGap
    split
    next isEmpty =>
      -- There is nothing below a gap.
      have noSubkeys : subkeys = [] := List.isEmpty_iff.1 (Bool.and_eq_true_iff.1 isEmpty).2
      rw [isEmpty] at isGap
      rw [List.filter_cons_of_pos isGap, noSubkeys]
      rfl
    next notEmpty =>
      rw [Bool.eq_false_iff.2 notEmpty] at isGap
      rw [List.filter_cons_of_neg (by simp [isGap]), List.filter_flatMap, List.map_flatMap,
        List.append_nil]
      rfl

theorem Schema.Document.nodeGaps_eq (document : Document) (root : String) :
    ((document.reachedPlaces store root).filter (·.isGap store)).map
        (fun place => Advisory.missingConstantDefinition place.path) =
      (Schema.inOrder document.defines).flatMap (Define.gaps store root []) := by
  rw [reachedPlaces, Define.filter_listPlaces, List.filter_flatMap, List.map_flatMap]
  rfl

end Reached

end Typings

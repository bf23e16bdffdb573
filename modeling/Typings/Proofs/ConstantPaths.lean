import Typings.Proofs.ConstantTree
import Typings.Proofs.OrderIndependence
import Typings.Proofs.UsableDocuments

/-! # Paths of constants

The path of a constant is put together from the names that lead to it. If no name has a dot inside,
the names can be read off the path, so that two constants have the same path only if the same names
lead to both. In a usable document these are never two nodes or two values, but a node may have a
value and a subkey of the same name.

* `Constant`, `Document.constants`: the nodes and values of a tree with the names that lead there.
* `path_inj`: a path is that of one list of names.
* `Define.distinct_constants`: where constants of different kinds may have the same names, and where
  not.
* `Document.definePaths_name_constants`: what a path of a usable document names.
-/

namespace Typings.Schema

/-! ## Paths -/

/-- The path that leads from `root` along the names. -/
def pathOf (root : String) (names : List String) : String :=
  names.foldl qualified root

theorem toList_pathOf (root : String) (names : List String) :
    (pathOf root names).toList = root.toList ++ names.flatMap fun name => '.' :: name.toList := by
  induction names generalizing root with
  | nil => simp [pathOf]
  | cons name names ih =>
    have spelled : (qualified root name).toList = root.toList ++ '.' :: name.toList := by
      simp [qualified]
    rw [pathOf, List.foldl_cons, ← pathOf, ih, spelled, List.flatMap_cons, List.append_assoc]

theorem intercalate_dot (front : List Char) (pieces : List (List Char)) :
    ['.'].intercalate (front :: pieces) = front ++ pieces.flatMap ('.' :: ·) := by
  induction pieces generalizing front with
  | nil => simp
  | cons piece pieces ih =>
    rw [List.intercalate_cons_cons, ih, List.flatMap_cons]
    simp

/-- Names without dots can be read off a path. -/
theorem pathOf_inj {root : String} {names names' : List String}
    (plain : ∀ name ∈ names, '.' ∉ name.toList) (plain' : ∀ name ∈ names', '.' ∉ name.toList)
    (same : pathOf root names = pathOf root names') : names = names' := by
  -- between its dots, what follows the root holds the names, behind an empty piece
  have read {names : List String} (plain : ∀ name ∈ names, '.' ∉ name.toList) :
      (names.flatMap fun name => '.' :: name.toList).splitOn '.' =
        [] :: names.map String.toList := by
    have pieces : ∀ piece ∈ [] :: names.map String.toList, '.' ∉ piece := by
      simpa using plain
    have joined := intercalate_dot [] (names.map String.toList)
    rw [List.nil_append, List.flatMap_map] at joined
    rw [← joined, List.splitOn_intercalate '.' pieces (List.cons_ne_nil _ _)]
  rw [← String.toList_inj, toList_pathOf, toList_pathOf, List.append_cancel_left_eq] at same
  have samePieces :=
    (read plain).symm.trans ((congrArg (List.splitOn '.') same).trans (read plain'))
  exact List.map_injective_iff.2 (fun _ _ => String.toList_inj.1) (List.cons.inj samePieces).2

/-! ## Constants -/

/-- A constant of a tree: a node or a value, with the names that lead to it from the top. -/
structure Constant where
  names : List String
  thing : Define ⊕ NamedOption

namespace Constant

def isNode (c : Constant) : Bool :=
  c.thing.isLeft

/-- The path of the constant from `root` on. -/
def path (root : String) (c : Constant) : String :=
  pathOf root c.names

/-- The constant of a tree that is the subkey of a node. -/
def below (name : String) (c : Constant) : Constant :=
  { c with names := name :: c.names }

end Constant

mutual

/-- The constants of a node in the order of the document: the node itself, its values, and what is
below it. -/
def Define.constants : Define → List Constant
  | .node name order description values subkeys =>
    ⟨[name], .inl (.node name order description values subkeys)⟩
      :: values.map (fun value => ⟨[name, value.name], .inr value⟩)
      ++ (Define.listConstants subkeys).map (.below name)

def Define.listConstants : List Define → List Constant
  | [] => []
  | d :: ds => d.constants ++ Define.listConstants ds

end

theorem Define.listConstants_eq_flatMap (ds : List Define) :
    Define.listConstants ds = ds.flatMap Define.constants := by
  induction ds with
  | nil => rfl
  | cons d ds ih => rw [listConstants, ih, List.flatMap_cons]

theorem Define.constants_eq (d : Define) :
    d.constants = ⟨[d.name], .inl d⟩
      :: d.values.map (fun value => ⟨[d.name, value.name], .inr value⟩)
      ++ (Define.listConstants d.subkeys).map (.below d.name) := by
  cases d
  rw [constants]
  rfl

/-- The constants of the tree in the document, in its order. -/
def Document.constants (document : Document) : List Constant :=
  Define.listConstants document.defines

/-- The constants of a node have the paths that a document lists for it, in this order. -/
theorem Define.map_path_constants (d : Define) (root : String) :
    d.constants.map (Constant.path root) = d.paths root := by
  induction d using Define.induct generalizing root with
  | node name order description values subkeys ih =>
    have inside : (Define.listConstants subkeys).map (Constant.path root ∘ Constant.below name) =
        Define.listPaths (qualified root name) subkeys := by
      rw [listConstants_eq_flatMap, listPaths_eq_flatMap, List.map_flatMap]
      exact List.flatMap_congr fun d isMember => ih d isMember (qualified root name)
    rw [constants, paths, List.map_append, List.map_cons, List.map_map, List.map_map, inside]
    rfl

theorem Document.map_path_constants (document : Document) (root : String) :
    document.constants.map (Constant.path root) = document.definePaths root := by
  rw [constants, definePaths, Define.listConstants_eq_flatMap, Define.listPaths_eq_flatMap,
    List.map_flatMap]
  exact List.flatMap_congr fun d _ => d.map_path_constants root

/-! ## Names that lead to constants -/

/-- No value of the node has the name of a subkey. -/
def Define.ValuesApart (d : Define) : Prop :=
  ∀ value ∈ d.values, ∀ sub ∈ d.subkeys, value.name ≠ sub.name

theorem Define.exists_names_of_mem {d : Define} {c : Constant} (isMember : c ∈ d.constants) :
    ∃ names, c.names = d.name :: names := by
  rw [constants_eq] at isMember
  simp only [List.cons_append, List.mem_cons, List.mem_append, List.mem_map] at isMember
  rcases isMember with rfl | ⟨value, _, rfl⟩ | ⟨c', _, rfl⟩
  · exact ⟨[], rfl⟩
  · exact ⟨[value.name], rfl⟩
  · exact ⟨c'.names, rfl⟩

theorem Define.names_ne_nil_of_mem {ds : List Define} {c : Constant}
    (isMember : c ∈ Define.listConstants ds) : c.names ≠ [] := by
  rw [listConstants_eq_flatMap] at isMember
  obtain ⟨d, _, inside⟩ := List.mem_flatMap.1 isMember
  obtain ⟨names, same⟩ := exists_names_of_mem inside
  rw [same]
  exact List.cons_ne_nil _ _

/-- A single name leads to a node at the top. -/
theorem Define.isTop_of_mem {ds : List Define} {c : Constant} {name : String}
    (isMember : c ∈ Define.listConstants ds) (single : c.names = [name]) :
    c.isNode = true ∧ ∃ d ∈ ds, d.name = name := by
  rw [listConstants_eq_flatMap] at isMember
  obtain ⟨d, isThere, inside⟩ := List.mem_flatMap.1 isMember
  rw [constants_eq] at inside
  simp only [List.cons_append, List.mem_cons, List.mem_append, List.mem_map] at inside
  rcases inside with rfl | ⟨value, _, rfl⟩ | ⟨c, inside, rfl⟩
  · exact ⟨rfl, d, isThere, List.singleton_inj.1 single⟩
  · simp at single
  · exact (names_ne_nil_of_mem inside (List.cons.inj single).2).elim

theorem Define.mem_listConstants_top {ds : List Define} {d : Define} (isMember : d ∈ ds) :
    ⟨[d.name], .inl d⟩ ∈ Define.listConstants ds := by
  rw [listConstants_eq_flatMap]
  refine List.mem_flatMap.2 ⟨d, isMember, ?_⟩
  rw [constants_eq]
  exact List.mem_cons_self

/-! ## Constants with the same names -/

section Keys

variable {κ : Type} (mark : Bool → κ)

/-- The names that lead to the constant, with a mark that may depend on its kind. -/
def Constant.key (c : Constant) : List String × κ :=
  (c.names, mark c.isNode)

/-- Siblings with different names share no keys, so that each can be considered by itself. -/
theorem Define.nodup_listKeys {ds : List Define} (distinct : (ds.map Define.name).Nodup) :
    ((Define.listConstants ds).map (Constant.key mark)).Nodup ↔
      ∀ d ∈ ds, (d.constants.map (Constant.key mark)).Nodup := by
  -- each key of a constant starts with the name of the node at the top
  have apart : ds.Pairwise (Function.onFun List.Disjoint fun d =>
      d.constants.map (Constant.key mark)) := by
    refine (List.pairwise_map.1 distinct).imp fun {d d'} other => ?_
    intro key inside inside'
    obtain ⟨c, isMember, rfl⟩ := List.mem_map.1 inside
    obtain ⟨c', isMember', same⟩ := List.mem_map.1 inside'
    obtain ⟨names, isFirst⟩ := exists_names_of_mem isMember
    obtain ⟨names', isFirst'⟩ := exists_names_of_mem isMember'
    have sameNames : c'.names = c.names := congrArg Prod.fst same
    rw [isFirst, isFirst'] at sameNames
    exact other (List.cons.inj sameNames).1.symm
  rw [listConstants_eq_flatMap, List.map_flatMap, List.nodup_flatMap, and_iff_left apart]

/-- A value has the key of a constant below its node only if a subkey has its name, and the mark
does not tell values from nodes. -/
theorem Define.keys_apart {d : Define} :
    (∀ value ∈ d.values, ∀ c ∈ Define.listConstants d.subkeys,
        ([d.name, value.name], mark false) ≠ (c.below d.name).key mark) ↔
      mark true ≠ mark false ∨ d.ValuesApart := by
  constructor
  · intro apart
    rw [or_iff_not_imp_left, not_not]
    intro sameMark value isValue sub isSub sameName
    -- the subkey itself is the constant below that has the key of the value
    refine apart value isValue _ (mem_listConstants_top isSub) ?_
    rw [Constant.key, Constant.below, Constant.isNode, sameName, Sum.isLeft_inl, sameMark]
  · rintro apart value isValue c inside same
    obtain ⟨sameNames, sameMark⟩ := Prod.mk.inj same
    -- what is below with a single further name is a subkey, so that the marks are told apart
    have single : c.names = [value.name] := (List.cons.inj sameNames).2.symm
    obtain ⟨isNode, sub, isSub, sameName⟩ := isTop_of_mem inside single
    have isNode' : (c.below d.name).isNode = true := isNode
    rw [isNode'] at sameMark
    rcases apart with other | apart
    · exact other sameMark.symm
    · exact apart value isValue sub isSub sameName.symm

/-- At one node, two keys can only meet when a value has the name of a subkey. -/
theorem Define.nodup_keys_step {d : Define} (valueNames : (d.values.map (·.name)).Nodup) :
    (d.constants.map (Constant.key mark)).Nodup ↔
      (mark true ≠ mark false ∨ d.ValuesApart) ∧
        ((Define.listConstants d.subkeys).map (Constant.key mark)).Nodup := by
  have values : (d.values.map fun value => ([d.name, value.name], mark false)).Nodup := by
    have renamed := valueNames.map
      (f := fun name => ([d.name, name], mark false)) fun _ _ same => by simpa using same
    rwa [List.map_map] at renamed
  have below : ((Define.listConstants d.subkeys).map (Constant.key mark ∘ .below d.name)).Nodup ↔
      ((Define.listConstants d.subkeys).map (Constant.key mark)).Nodup := by
    have longer := List.nodup_map_iff (f := fun key : List String × κ => (d.name :: key.1, key.2))
      (l := (Define.listConstants d.subkeys).map (Constant.key mark)) fun key key' same => by
        obtain ⟨sameNames, sameMark⟩ := Prod.mk.inj same
        exact Prod.ext (List.cons.inj sameNames).2 sameMark
    rwa [List.map_map] at longer
  -- all other names are longer than those of the node
  have first : ([d.name], mark true) ∉
      d.values.map (fun value => ([d.name, value.name], mark false))
        ++ (Define.listConstants d.subkeys).map (Constant.key mark ∘ .below d.name) := by
    rw [List.mem_append, List.mem_map, List.mem_map]
    rintro (⟨value, _, same⟩ | ⟨c, inside, same⟩)
    · simp at same
    · exact names_ne_nil_of_mem inside (List.cons.inj (Prod.mk.inj same).1).2
  have keys : d.constants.map (Constant.key mark) = ([d.name], mark true)
      :: (d.values.map (fun value => ([d.name, value.name], mark false))
        ++ (Define.listConstants d.subkeys).map (Constant.key mark ∘ .below d.name)) := by
    rw [constants_eq, List.cons_append, List.map_cons, List.map_append, List.map_map, List.map_map]
    rfl
  rw [keys, List.nodup_cons, and_iff_right first, List.nodup_append, and_iff_right values, below,
    and_comm, ← keys_apart]
  simp only [List.forall_mem_map]
  rfl

/-- Only a value and a subkey of one node may have the same names, and then the mark may tell them
apart. -/
theorem Define.nodup_keys {d : Define}
    (fine : ∀ node, d.Holds node →
      AreNames (node.values.map (·.name)) ∧ AreNames (node.subkeys.map Define.name)) :
    (d.constants.map (Constant.key mark)).Nodup ↔
      mark true ≠ mark false ∨ ∀ node, d.Holds node → node.ValuesApart := by
  induction d using Define.induct with
  | node name order description values subkeys ih =>
    rw [forall_holds] at fine
    obtain ⟨⟨valueNames, subkeyNames⟩, fine⟩ := fine
    have below : (∀ sub ∈ subkeys, (sub.constants.map (Constant.key mark)).Nodup) ↔
        mark true ≠ mark false ∨ ∀ sub ∈ subkeys, ∀ node, sub.Holds node → node.ValuesApart := by
      have each (sub : Define) (isMember : sub ∈ subkeys) := ih sub isMember (fine sub isMember)
      rw [forall₂_congr each]
      simp only [forall_or_left]
    rw [forall_holds, nodup_keys_step mark valueNames.distinct,
      nodup_listKeys mark subkeyNames.distinct, or_and_left]
    exact and_congr_right fun _ => below

end Keys

/-! ## The tree of a document -/

/-- The nodes among the constants are those that the node holds. -/
theorem Define.holds_iff {d node : Define} :
    d.Holds node ↔ ∃ c ∈ d.constants, node ∈ c.thing.getLeft? := by
  induction d using Define.induct with
  | node name order description values subkeys ih =>
    rw [constants]
    simp only [List.cons_append, List.exists_mem_cons_iff, List.mem_append, List.mem_map]
    constructor
    · intro holds
      cases holds with
      | self => exact .inl rfl
      | inside isMember holds =>
        obtain ⟨c, inside, isThing⟩ := (ih _ isMember).1 holds
        rw [listConstants_eq_flatMap]
        exact .inr ⟨_, .inr ⟨c, List.mem_flatMap.2 ⟨_, isMember, inside⟩, rfl⟩, isThing⟩
    · rintro (isThing | ⟨_, ⟨value, _, rfl⟩ | ⟨c, inside, rfl⟩, isThing⟩)
      · obtain rfl := Option.some.inj isThing
        exact .self _
      · cases isThing
      · rw [listConstants_eq_flatMap] at inside
        obtain ⟨sub, isMember, inside⟩ := List.mem_flatMap.1 inside
        exact .inside isMember ((ih sub isMember).2 ⟨c, inside, isThing⟩)

instance (d : Define) (P : Define → Prop) [DecidablePred P] :
    Decidable (∀ node, d.Holds node → P node) :=
  decidable_of_iff (∀ c ∈ d.constants, ∀ node ∈ c.thing.getLeft?, P node) <| by
    simp only [Define.holds_iff]
    exact ⟨fun all node ⟨c, inside, isThing⟩ => all c inside node isThing,
      fun all c inside node isThing => all node ⟨c, inside, isThing⟩⟩

instance : DecidablePred Define.ValuesApart :=
  fun d => inferInstanceAs (Decidable (∀ value ∈ d.values, ∀ sub ∈ d.subkeys, _))

theorem Define.plain_of_mem {P : String → Prop} {d : Define}
    (plain : ∀ node, d.Holds node → P node.name ∧ ∀ value ∈ node.values, P value.name) :
    ∀ c ∈ d.constants, ∀ name ∈ c.names, P name := by
  induction d using Define.induct with
  | node name order description values subkeys ih =>
    rw [forall_holds] at plain
    obtain ⟨⟨plainName, plainValues⟩, plainBelow⟩ := plain
    rw [Define.name] at plainName
    intro c isMember
    rw [constants] at isMember
    simp only [List.cons_append, List.mem_cons, List.mem_append, List.mem_map] at isMember
    rcases isMember with rfl | ⟨value, isValue, rfl⟩ | ⟨c, inside, rfl⟩
    · simpa using plainName
    · simpa using ⟨plainName, plainValues value isValue⟩
    · rw [listConstants_eq_flatMap] at inside
      obtain ⟨sub, isSub, inside⟩ := List.mem_flatMap.1 inside
      exact List.forall_mem_cons.2 ⟨plainName, ih sub isSub (plainBelow sub isSub) c inside⟩

namespace Document

variable {document : Document}

/-- No node and no value in the tree of constants has a dot in its name. -/
def PlainConstants (document : Document) : Prop :=
  ∀ d ∈ document.defines, ∀ node, d.Holds node →
    '.' ∉ node.name.toList ∧ ∀ value ∈ node.values, '.' ∉ value.name.toList

/-- No node in the tree of constants has a value and a subkey of the same name. -/
def ValuesApart (document : Document) : Prop :=
  ∀ d ∈ document.defines, ∀ node, d.Holds node → node.ValuesApart

instance : DecidablePred PlainConstants :=
  fun document => inferInstanceAs (Decidable (∀ d ∈ document.defines, _))

instance : DecidablePred ValuesApart :=
  fun document => inferInstanceAs (Decidable (∀ d ∈ document.defines, _))

theorem nodup_keys {κ : Type} (mark : Bool → κ) (usable : document.Usable) :
    (document.constants.map (Constant.key mark)).Nodup ↔
      mark true ≠ mark false ∨ document.ValuesApart := by
  have each (d : Define) (isMember : d ∈ document.defines) :=
    Define.nodup_keys mark (usable.nodes d isMember)
  rw [constants, Define.nodup_listKeys mark usable.defines.distinct, forall₂_congr each,
    ValuesApart]
  simp only [forall_or_left]

/-- Paths tell constants apart as the names do. -/
theorem nodup_marked_paths {κ : Type} (mark : Bool → κ) (usable : document.Usable)
    (plain : document.PlainConstants) (root : String) :
    (document.constants.map fun c => (c.path root, mark c.isNode)).Nodup ↔
      mark true ≠ mark false ∨ document.ValuesApart := by
  have plainNames : ∀ c ∈ document.constants, ∀ name ∈ c.names, '.' ∉ name.toList := by
    intro c isMember
    rw [constants, Define.listConstants_eq_flatMap] at isMember
    obtain ⟨d, isThere, inside⟩ := List.mem_flatMap.1 isMember
    exact Define.plain_of_mem (P := fun name => '.' ∉ name.toList) (plain d isThere) c inside
  rw [← nodup_keys mark usable, List.Nodup, List.Nodup, List.pairwise_map, List.pairwise_map]
  refine List.Pairwise.iff_of_mem fun {c c'} isMember isMember' => not_congr ?_
  rw [Constant.key, Constant.key, Prod.mk.injEq, Prod.mk.injEq]
  refine and_congr_left fun _ => ⟨pathOf_inj (plainNames c isMember) (plainNames c' isMember'), ?_⟩
  exact congrArg (pathOf root)

/-- The paths are all different unless a value and a subkey of one node share a name. -/
theorem definePaths_nodup (usable : document.Usable) (plain : document.PlainConstants)
    (root : String) : (document.definePaths root).Nodup ↔ document.ValuesApart := by
  -- a mark that tells nothing apart leaves the paths alone
  have unmarked := nodup_marked_paths (fun _ => ()) usable plain root
  have paired : (document.constants.map fun c => (c.path root, ())) =
      (document.definePaths root).map fun path => (path, ()) := by
    rw [← map_path_constants, List.map_map]
    rfl
  rwa [paired, List.nodup_map_iff fun _ _ same => (Prod.mk.inj same).1,
    or_iff_right fun other => other rfl] at unmarked

/-- Constants of one kind never share a path. -/
theorem nodup_paths_of_kind (usable : document.Usable) (plain : document.PlainConstants)
    (root : String) (isNode : Bool) :
    ((document.constants.filter (·.isNode == isNode)).map (Constant.path root)).Nodup := by
  -- with its kind as the mark, a constant of the same path can only be of the other kind
  have marked := (nodup_marked_paths id usable plain root).2 (.inl (by decide))
  have kept := marked.sublist ((List.filter_sublist (p := (·.isNode == isNode))).map _)
  have sameMark : ∀ c ∈ document.constants.filter (·.isNode == isNode),
      (c.path root, id c.isNode) = (c.path root, isNode) := by
    intro c isMember
    rw [id, beq_iff_eq.1 (List.mem_filter.1 isMember).2]
  rw [List.map_congr_left sameMark] at kept
  exact List.Nodup.of_map (·, isNode) (by rwa [List.map_map])

end Document

/-- A run that looks for overrides reaches the nodes under their paths. -/
theorem Define.Reaches.exists_constant {store : OverrideStore} {parent path : String}
    {d node : Define} (reaches : d.Reaches store parent path node) :
    ∃ c ∈ d.constants, node ∈ c.thing.getLeft? ∧ c.path parent = path := by
  induction reaches with
  | here parent d =>
    refine ⟨⟨[d.name], .inl d⟩, ?_, rfl, rfl⟩
    rw [constants_eq]
    exact List.mem_cons_self
  | @deeper parent path d sub node _ isMember _ ih =>
    obtain ⟨c, inside, isThing, isPath⟩ := ih
    refine ⟨c.below d.name, ?_, isThing, isPath⟩
    rw [constants_eq, listConstants_eq_flatMap]
    exact List.mem_append_right _ (List.mem_map_of_mem (List.mem_flatMap.2 ⟨sub, isMember, inside⟩))

namespace Document

variable {document : Document}

/-- Without dots in names a path spells out the nodes that lead to it. -/
theorem eq_of_reaches (usable : document.Usable) (plain : document.PlainConstants)
    {store : OverrideStore} {root path : String} {d d' node node' : Define}
    (isMember : d ∈ document.defines) (isMember' : d' ∈ document.defines)
    (reaches : d.Reaches store root path node) (reaches' : d'.Reaches store root path node') :
    node = node' := by
  obtain ⟨c, inside, isThing, isPath⟩ := reaches.exists_constant
  obtain ⟨c', inside', isThing', isPath'⟩ := reaches'.exists_constant
  have isNode {d node : Define} {c : Constant} (isMember : d ∈ document.defines)
      (inside : c ∈ d.constants) (isThing : node ∈ c.thing.getLeft?) :
      c ∈ document.constants.filter (·.isNode == true) := by
    rw [List.mem_filter, constants, Define.listConstants_eq_flatMap, List.mem_flatMap]
    refine ⟨⟨d, isMember, inside⟩, ?_⟩
    rw [Constant.isNode, Sum.getLeft?_eq_some_iff.1 isThing]
    rfl
  have same := List.inj_on_of_nodup_map (nodup_paths_of_kind usable plain root true)
    (isNode isMember inside isThing) (isNode isMember' inside' isThing') (isPath.trans isPath'.symm)
  subst same
  exact Option.some.inj (isThing.symm.trans isThing')

theorem filter_eq_singleton_of_nodup_map {α : Type} {f : α → String} {xs : List α} {x : α}
    (distinct : (xs.map f).Nodup) (isMember : x ∈ xs) : xs.filter (f · == f x) = [x] := by
  obtain ⟨front, back, rfl⟩ := List.append_of_mem isMember
  rw [List.map_append, List.map_cons, List.nodup_middle, List.nodup_cons, List.mem_append,
    List.mem_map, List.mem_map] at distinct
  have others : ∀ y, y ∈ front ∨ y ∈ back → ¬ (f y == f x) = true := by
    rintro y isThere same
    exact distinct.1 (isThere.imp (⟨y, ·, beq_iff_eq.1 same⟩) (⟨y, ·, beq_iff_eq.1 same⟩))
  have here : (f x == f x) = true := beq_self_eq_true (f x)
  rw [List.filter_append, List.filter_cons_of_pos (p := (f · == f x)) here,
    List.filter_eq_nil_iff.2 fun y isThere => others y (.inl isThere),
    List.filter_eq_nil_iff.2 fun y isThere => others y (.inr isThere), List.nil_append]

/-- In a usable document whose constants have no dots in their names, a path stands for one node and
for one value at most, so that an override under a path is looked up for a single node. The path
stands for a single constant throughout if, and only if, no node has a value and a subkey of the
same name. -/
theorem definePaths_name_constants (valid : document.errors = [])
    (plain : document.PlainConstants) (root : String) :
    document.constants.map (Constant.path root) = document.definePaths root ∧
      ((document.definePaths root).Nodup ↔ document.ValuesApart) ∧
      (document.ValuesApart → ∀ path ∈ document.definePaths root,
        ∃ c, document.constants.filter (·.path root == path) = [c]) ∧
      (∀ isNode,
        ((document.constants.filter (·.isNode == isNode)).map (Constant.path root)).Nodup) ∧
      ∀ (store : OverrideStore) (path : String), ∀ d ∈ document.defines, ∀ d' ∈ document.defines,
        ∀ node node', d.Reaches store root path node → d'.Reaches store root path node' →
          node = node' := by
  have usable : document.Usable := error?_eq_none.1 (Option.toList_eq_nil_iff.1 valid)
  refine ⟨map_path_constants document root, definePaths_nodup usable plain root, ?_,
    nodup_paths_of_kind usable plain root,
    fun store path d isMember d' isMember' node node' reaches reaches' =>
      eq_of_reaches usable plain isMember isMember' reaches reaches'⟩
  intro apart path isPath
  have distinct := (definePaths_nodup usable plain root).2 apart
  rw [← map_path_constants] at distinct isPath
  obtain ⟨c, isMember, rfl⟩ := List.mem_map.1 isPath
  exact ⟨c, filter_eq_singleton_of_nodup_map distinct isMember⟩

def signalsDocument : Document :=
  { application := "factorio", stage := "runtime", apiVersion := 3
    defines :=
      [.node "signals" 0 "" [{ name := "red", order := 0 }, { name := "green", order := 1 }]
        [.node "lamp" 0 "" [{ name := "red", order := 0 }] []]] }

theorem signalsDocument_names_constants :
    signalsDocument.errors = [] ∧ signalsDocument.PlainConstants ∧
      signalsDocument.definePaths "my.defines" =
        ["my.defines.signals", "my.defines.signals.red", "my.defines.signals.green",
          "my.defines.signals.lamp", "my.defines.signals.lamp.red"] ∧
      (signalsDocument.definePaths "my.defines").Nodup := by
  have valid : signalsDocument.errors = [] := by decide +kernel
  have plain : signalsDocument.PlainConstants := by decide +kernel
  refine ⟨valid, plain, by decide +kernel, ?_⟩
  obtain ⟨_, distinct, _⟩ := definePaths_name_constants valid plain "my.defines"
  exact distinct.2 (by decide +kernel)

/-- A document with a node that has a value and a subkey of the same name. -/
def twinsDocument : Document :=
  { application := "factorio", stage := "runtime", apiVersion := 3
    defines :=
      [.node "signals" 0 "" [{ name := "red", order := 0 }] [.node "red" 0 "" [] []]] }

theorem twinsDocument_shares_path :
    twinsDocument.errors = [] ∧ twinsDocument.PlainConstants ∧
      ¬ (twinsDocument.definePaths "defines").Nodup := by
  decide +kernel

end Document

end Typings.Schema

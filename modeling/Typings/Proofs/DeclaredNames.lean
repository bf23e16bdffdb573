import Mathlib.Data.List.Perm.Basic
import Typings.Proofs.Outline
import Typings.Proofs.UsableDocuments

/-! # Names of declarations

Without overrides, the names of the declarations are those of the entities and the names that a run
makes up: of the interfaces of events, the types that tables with variants need, and the marker
interface. The names of the entities are distinct. A name that is made up may be the same as
another one: the names of two events may differ in nothing but their separators.

* `Schema.Document.names_nodup`: a usable document names each entity of a category once.
* `Schema.Document.ownNames`, `Schema.Document.inventedNames`: the names of the declarations.
* `tickDocument_names_collide`: two events with interfaces of one name.
* `generate_names_nodup_iff`: when the names of the declarations are distinct.
-/

namespace Typings

/-- The names of the interfaces that the type of the table is made of. -/
def VariantTable.partNames (table : VariantTable) : List String :=
  table.baseName :: (Schema.inOrder table.groups).map table.groupName

namespace Schema

/-! ## Names of usable documents -/

namespace Document

variable {document : Document}

/-- In a document without errors no category has a name twice. -/
theorem names_nodup (usable : document.error? = none) {category : NameCategory}
    {names : List String} (isCategory : (category, names) ∈ document.namesByCategory) :
    names.Nodup := by
  rw [error?, Option.or_eq_none_iff, Option.or_eq_none_iff, List.findSome?_eq_none_iff] at usable
  obtain ⟨_, unique, _⟩ := usable
  exact (nameError?_eq_none.1 (unique _ isCategory)).distinct

end Document

/-! ## Names of declarations -/

namespace Document

variable (document : Document) (config : Config)

/-- The names of the entities by category, but for the nodes of the tree of constants, which are
    declared below their root. -/
def entityNames : List (List String) :=
  (document.namesByCategory.filter fun named => named.1 ≠ .defines).map (·.2)

/-- The names of the entities that are declared under their own name. -/
def ownNames : List String :=
  ((inOrder document.builtinTypes).filter fun b => !config.isNative b.name).map BuiltinType.name
    ++ (inOrder document.classes).map Class.name
    ++ (inOrder document.concepts).map Concept.name
    ++ (inOrder document.globalObjects).map GlobalObject.name

def inventedNames : List String :=
  (if document.defines = [] then [] else [config.constantsRoot])
    ++ ((inOrder document.events).map fun event => Text.pascalCase event.name ++ "Event")
    ++ ((inOrder document.classes).flatMap fun c => (c.helperOutline none).map Outline.name)
    ++ (document.markerOutline .empty config).map Outline.name
    ++ (inOrder document.concepts).flatMap fun concept =>
      concept.ownTable?.toList.flatMap VariantTable.partNames

end Document

theorem map_name_plain {α : Type} (name : α → String) (xs : List α) :
    (xs.map fun x => (⟨name x, []⟩ : Outline)).map Outline.name = xs.map name := by
  simp

theorem BuiltinType.map_name_outline (config : Config) (builtins : List BuiltinType) :
    (builtins.flatMap fun b => (b.outline .empty config).map Outline.name) =
      (builtins.filter fun b => !config.isNative b.name).map BuiltinType.name := by
  induction builtins with
  | nil => rfl
  | cons builtin builtins ih =>
    have absent : OverrideStore.empty.get? builtin.name = none := rfl
    rw [List.flatMap_cons, ih, List.filter_cons, BuiltinType.outline]
    cases config.isNative builtin.name <;> simp [absent]

theorem Class.map_name_outline (c : Class) (marker : String) :
    (c.outline none marker).map Outline.name =
      (c.helperOutline none).map Outline.name ++ [c.name] := by
  simp [Class.outline, Class.isSplit]

theorem Concept.name_of_ownTable? {concept : Concept} {table : VariantTable}
    (isTable : concept.ownTable? = some table) : table.name = concept.name := by
  obtain ⟨shape, _, isTable⟩ := Option.bind_eq_some_iff.1 isTable
  split at isTable
  · cases isTable
  · cases isTable
    rfl

theorem Concept.map_name_outline (concept : Concept) :
    (concept.outline .empty).map Outline.name =
      concept.ownTable?.toList.flatMap VariantTable.partNames ++ [concept.name] := by
  rw [Concept.outline]
  cases isTable : concept.ownTable? with
  | none => rfl
  | some table =>
    have absent : OverrideStore.empty.contains table.name = false := rfl
    rw [← Concept.name_of_ownTable? isTable]
    simp [absent, VariantTable.outline, VariantTable.partNames, Function.comp_def]

/-- Every declared name is an entity's own or made up, up to the order. -/
theorem Document.map_name_outline_perm (document : Document) (config : Config) :
    ((document.outline .empty config).map Outline.name).Perm
      (document.ownNames config ++ document.inventedNames config) := by
  have classes := List.flatMap_append_perm (inOrder document.classes)
    (fun c => (c.helperOutline none).map Outline.name) fun c => [c.name]
  have concepts := List.flatMap_append_perm (inOrder document.concepts)
    (fun concept => concept.ownTable?.toList.flatMap VariantTable.partNames) fun c => [c.name]
  have noStructural (name : String) : OverrideStore.empty.structural? name = none := rfl
  have noOverrides : OverrideStore.empty.overrides = [] := rfl
  -- The made-up names stand among the others, each in front of what needs it, so names are counted.
  rw [List.perm_iff_count] at classes concepts ⊢
  intro name
  simp only [Document.outline, List.map_append, List.map_flatMap, BuiltinType.map_name_outline,
    noStructural, Class.map_name_outline, Concept.map_name_outline, noOverrides, List.filter_nil,
    List.map_nil, List.count_append, List.count_nil, ← classes name, ← concepts name,
    Document.ownNames, Document.inventedNames, map_name_plain, ← List.map_eq_flatMap]
  have constants : (if document.defines = [] then []
      else [(⟨config.constantsRoot, []⟩ : Outline)]).map Outline.name =
      if document.defines = [] then [] else [config.constantsRoot] := by
    split <;> rfl
  rw [constants]
  omega

/-- The entities that are declared under their own name have distinct names. -/
theorem Document.ownNames_nodup {document : Document} (usable : document.error? = none)
    (apart : document.entityNames.Pairwise List.Disjoint) (config : Config) :
    (document.ownNames config).Nodup := by
  have unique : ∀ names ∈ document.entityNames, names.Nodup := by
    intro names isMember
    obtain ⟨named, isCategory, rfl⟩ := List.mem_map.1 isMember
    exact names_nodup usable (List.mem_of_mem_filter isCategory)
  have distinct : document.entityNames.flatten.Nodup := List.nodup_flatten.2 ⟨unique, apart⟩
  have sameNames : (document.ownNames config).Perm
      ((document.builtinTypes.filter fun b => !config.isNative b.name).map BuiltinType.name
        ++ document.classes.map Class.name ++ document.concepts.map Concept.name
        ++ document.globalObjects.map GlobalObject.name) :=
    (((((inOrder_perm _).filter _).map _).append ((inOrder_perm _).map _)).append
      ((inOrder_perm _).map _)).append ((inOrder_perm _).map _)
  rw [sameNames.nodup_iff]
  refine distinct.sublist ?_
  simp only [List.append_assoc]
  -- The native builtin types and the events are left out.
  apply (List.filter_sublist.map BuiltinType.name).append
  apply (List.Sublist.refl _).append
  apply (List.Sublist.refl _).append
  exact List.sublist_append_of_sublist_right (List.sublist_append_left _ _)

end Schema

/-- Without overrides, a run declares the entities under their own names, which are distinct, and
    what it makes up. The names are all distinct just when those that are made up are distinct and
    none of them is the name of an entity. -/
theorem generate_names_nodup_iff {document : Schema.Document} {config : Config} {g : Generation}
    (apart : document.entityNames.Pairwise List.Disjoint)
    (success : generate document .empty config = .ok g) :
    (g.declarations.map Declaration.name).Perm
        (document.ownNames config ++ document.inventedNames config) ∧
      (document.ownNames config).Nodup ∧
      ((g.declarations.map Declaration.name).Nodup ↔
        (document.inventedNames config).Nodup ∧
          (document.ownNames config).Disjoint (document.inventedNames config)) := by
  obtain ⟨usable, made, session, runs, rfl⟩ := generate_eq_ok.1 success
  have sameNames : (document.outline .empty config).map Outline.name =
      made.declarations.map Declaration.name :=
    Synth.map_eq_of_forall₂ (Synth.segments_outline runs) fun outline decl here => here.1.symm
  have names := document.map_name_outline_perm config
  rw [sameNames] at names
  have distinct := Schema.Document.ownNames_nodup usable apart config
  refine ⟨names, distinct, names.nodup_iff.trans ?_⟩
  simp [List.nodup_append', distinct]

/-- A document with entities of every category. The class extends the marker interface, and it has a
    method that takes a table with variants. -/
def stationDocument : Schema.Document where
  application := "factorio"
  stage := "runtime"
  apiVersion := 3
  builtinTypes := [⟨"string", 0, ""⟩, ⟨"uint", 1, ""⟩]
  classes :=
    [{ name := "LuaStation"
       order := 0
       methods :=
         [{ name := "help", order := 0 },
           { name := "call_train", order := 1, takesTable := true
             groups := [⟨"freight", 0, "", []⟩] }]
       attributes :=
         [.readOnly "valid" 0 (.named "boolean"), .readOnly "object_name" 1 (.named "string")] }]
  concepts :=
    [{ name := "Signal", order := 0, kind := .table ⟨[], [⟨"red", 0, "", []⟩], none⟩ }]
  events := [{ name := "on_tick", order := 0 }]
  defines := [.node "signal" 0 "" [⟨"red", 0, ""⟩] []]
  globalObjects := [⟨"game", 0, "", .named "LuaStation"⟩]

theorem stationDocument_names :
    ∃ g, stationDocument.entityNames.Pairwise List.Disjoint ∧
      generate stationDocument .empty {} = .ok g ∧
      stationDocument.ownNames {} = ["uint", "LuaStation", "Signal", "game"] ∧
      stationDocument.inventedNames {} =
        ["defines", "OnTickEvent", "BaseLuaStationCallTrainParams",
          "FreightLuaStationCallTrainParams", "LuaStationCallTrainParams", "LuaObjectBase",
          "BaseSignal", "RedSignal"] ∧
      (g.declarations.map Declaration.name).Perm
          (stationDocument.ownNames {} ++ stationDocument.inventedNames {}) ∧
        (stationDocument.ownNames {}).Nodup ∧
        ((g.declarations.map Declaration.name).Nodup ↔
          (stationDocument.inventedNames {}).Nodup ∧
            (stationDocument.ownNames {}).Disjoint (stationDocument.inventedNames {})) := by
  have apart : stationDocument.entityNames.Pairwise List.Disjoint := by
    simp [Schema.Document.entityNames, Schema.Document.namesByCategory, stationDocument]
  have isOk : (generate stationDocument .empty {}).isOk := by decide +kernel
  obtain ⟨g, success⟩ := exists_generation_of_isOk isOk
  exact ⟨g, apart, success, by decide +kernel, by decide +kernel,
    generate_names_nodup_iff apart success⟩

/-- The names of the events differ in nothing but a separator. -/
def tickDocument : Schema.Document where
  application := "factorio"
  stage := "runtime"
  apiVersion := 3
  events := [{ name := "on_tick", order := 0 }, { name := "on-tick", order := 1 }]

theorem tickDocument_names_collide :
    tickDocument.error? = none ∧ tickDocument.entityNames.Pairwise List.Disjoint ∧
      ∃ g, generate tickDocument .empty {} = .ok g ∧
        ¬ (g.declarations.map Declaration.name).Nodup := by
  have isOk : (generate tickDocument .empty {}).isOk := by decide +kernel
  have names : (generate tickDocument .empty {}).toOption.map
      (·.declarations.map Declaration.name) = some ["OnTickEvent", "OnTickEvent"] := by
    decide +kernel
  obtain ⟨g, success⟩ := exists_generation_of_isOk isOk
  have sameNames : g.declarations.map Declaration.name = ["OnTickEvent", "OnTickEvent"] := by
    rw [success] at names
    exact Option.some.inj names
  refine ⟨by decide +kernel, ?_, g, success, ?_⟩
  · simp [Schema.Document.entityNames, Schema.Document.namesByCategory, tickDocument]
  · rw [sameNames]
    decide

end Typings

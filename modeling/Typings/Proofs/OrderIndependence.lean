import Typings.Proofs.EntityAgreement

/-! # Runs on documents in another order

Where no two things of a list have the same place, the order of the list in the document does not
matter: a run works through it by the places. Lists are also searched in the order of the document,
but only for names, and then there is one thing to find.

* `Schema.Document.Reordered.agrees`: references lead to the same pages.
* `Schema.Class.Reordered.alike`: a class has the same members for the marker interface.
* `generate_reordered`: documents in another order have the same outcome.
-/

namespace Typings

open Schema

namespace Schema

/-! ## The tree of constants -/

theorem Define.listPaths_eq_flatMap (path : String) (ds : List Define) :
    Define.listPaths path ds = ds.flatMap (Define.paths path) := by
  induction ds with
  | nil => rw [listPaths, List.flatMap_nil]
  | cons d ds ih => rw [listPaths, ih, List.flatMap_cons]

theorem Define.contains_listPaths (path name : String) (ds : List Define) :
    (Define.listPaths path ds).contains name = ds.any fun d => (d.paths path).contains name := by
  rw [listPaths_eq_flatMap, List.contains_eq_any_beq, List.any_flatMap]
  simp only [List.contains_eq_any_beq]

theorem Define.Reordered.contains_paths {d d' : Define} (reordered : d.Reordered d')
    (path name : String) : (d.paths path).contains name = (d'.paths path).contains name := by
  -- The nodes below are at a longer path, so the path changes with the node.
  induction d using Define.induct generalizing d' path with
  | node key order description values subkeys ih =>
    cases reordered with
    | @node _ _ _ _ values' _ subkeys' sameValues sameSubkeys =>
      have sameValuePaths :
          (values.map fun value => qualified (qualified path key) value.name).contains name =
            (values'.map fun value => qualified (qualified path key) value.name).contains name := by
        simp only [List.contains_eq_any_beq, List.any_map]
        exact sameValues.any_eq fun _ _ _ same => by rw [same]
      have samePaths := sameSubkeys.any_eq fun d isMember d' reordered =>
        ih d isMember reordered (qualified path key)
      simp only [Define.paths, List.contains_append, sameValuePaths, contains_listPaths, samePaths]

/-! ## Pages -/

section Documents

variable {document document' : Document} (reordered : document.Reordered document')

include reordered

theorem Document.Reordered.contains_definePaths (root path : String) :
    (document.definePaths root).contains path = (document'.definePaths root).contains path := by
  rw [definePaths, definePaths, Define.contains_listPaths, Define.contains_listPaths]
  exact reordered.defines.any_eq fun d _ d' reordered => reordered.contains_paths root path

/-- References are looked up by name in whole categories, where sequence does not matter. -/
theorem Document.Reordered.agrees (store : OverrideStore) (config : Config) :
    (Context.of document store config).Agrees (.of document' store config) where
  config := rfl
  pages := by
    funext name
    let ctx := Context.of document store config
    let ctx' := Context.of document' store config
    have builtins : ctx.isBuiltin name = ctx'.isBuiltin name :=
      reordered.builtinTypes.any_eq fun _ _ _ same => by rw [same]
    have classes : ctx.isClass name = ctx'.isClass name :=
      reordered.classes.any_eq fun _ _ _ reordered => by cases reordered; rfl
    have events : ctx.isEvent name = ctx'.isEvent name :=
      reordered.events.any_eq fun _ _ _ reordered => by cases reordered; rfl
    have defines : ctx.isDefine name = ctx'.isDefine name :=
      reordered.contains_definePaths config.constantsRoot name
    have concepts : ctx.isConcept name = ctx'.isConcept name :=
      reordered.concepts.any_eq fun _ _ _ reordered => by cases reordered; rfl
    have globals : ctx.isGlobal name = ctx'.isGlobal name :=
      reordered.globalObjects.any_eq fun _ _ _ reordered => by cases reordered; rfl
    change ctx.entityPage? name = ctx'.entityPage? name
    rw [Context.entityPage?, Context.entityPage?, builtins, classes, events, defines, concepts,
      globals]
    rfl
  defines := by
    funext path
    exact reordered.contains_definePaths config.constantsRoot path

end Documents

/-! ## Members of classes -/

/-- If names are unique, the first method or attribute of a name is the only one. -/
theorem Class.Reordered.alike {c c' : Schema.Class} (reordered : c.Reordered c')
    (uniqueMethods : (c.methods.map (·.name)).Nodup)
    (uniqueAttributes : (c.attributes.map (·.name)).Nodup) : c.Alike c' := by
  cases reordered with
  | intro sameMethods sameAttributes sameOperators =>
    refine ⟨.intro sameMethods sameAttributes sameOperators, fun name => ?_, fun name => ?_⟩
    · refine sameMethods.find?_rel (fun _ _ reordered => by cases reordered; rfl)
        fun m isMember m' isMember' here here' => ?_
      refine List.inj_on_of_nodup_map uniqueMethods isMember isMember' ?_
      exact (eq_of_beq here).trans (eq_of_beq here').symm
    · refine sameAttributes.find?_rel (fun _ _ reordered => by cases reordered; rfl)
        fun a isMember a' isMember' here here' => ?_
      refine List.inj_on_of_nodup_map uniqueAttributes isMember isMember' ?_
      exact (eq_of_beq here).trans (eq_of_beq here').symm

end Schema

/-! ## Runs -/

/-- The order of the lists in a usable document does not matter where the places in a list differ,
    if no class has two methods or two attributes of one name. -/
theorem generate_reordered {document document' : Document}
    (reordered : document.Reordered document') (valid : document.error? = none)
    (valid' : document'.error? = none)
    (unique : ∀ c ∈ document.classes,
      (c.methods.map (·.name)).Nodup ∧ (c.attributes.map (·.name)).Nodup)
    (store : OverrideStore) (config : Config) :
    generate document store config = generate document' store config := by
  have alike : Shuffled Class.Alike document.classes document'.classes :=
    reordered.classes.mono fun c isMember c' sameClass =>
      sameClass.alike (unique c isMember).1 (unique c isMember).2
  have sameEntities := Synth.entities_congr (reordered.agrees store config) reordered
    (fun _ _ => rfl) alike rfl
  have sameSegments : Synth.segments (.of document store config) =
      Synth.segments (.of document' store config) := by
    rw [Synth.segments_eq_entities, Synth.segments_eq_entities, sameEntities]
    rfl
  rw [generate, generate, valid, valid']
  simp only [synthesize_eq, sameSegments, Generation.of, reordered.applicationVersion]

/-- The method that moves a train, with its options in a table. -/
def moveMethod (options : List Parameter) : Method where
  name := "move"
  order := 1
  parameters := [.required "options" 0 (.table ⟨options, [], none⟩)]

def helpWithTrains : Method where
  name := "help"
  order := 0

def speedOption : Parameter := .required "speed" 0 (.named "double")

def targetOption : Parameter := .required "target" 1 (.named "string")

/-- A document with one class and one level of constants, whose lists are as given. -/
def trainDocumentOf (methods : List Method) (values : List NamedOption) : Document where
  application := "factorio"
  stage := "runtime"
  apiVersion := 3
  classes :=
    [{ name := "LuaTrain"
       order := 0
       methods
       attributes := [.readOnly "valid" 0 (.named "boolean"),
         .readOnly "object_name" 1 (.named "string")] }]
  defines := [.node "train" 0 "" values []]

def trainDocument : Document :=
  trainDocumentOf [helpWithTrains, moveMethod [speedOption, targetOption]]
    [⟨"moving", 0, ""⟩, ⟨"parked", 1, ""⟩]

/-- The same document with its methods, the options of a method and its values turned around. -/
def turnedTrainDocument : Document :=
  trainDocumentOf [moveMethod [targetOption, speedOption], helpWithTrains]
    [⟨"parked", 1, ""⟩, ⟨"moving", 0, ""⟩]

theorem turnedTrainDocument_generates :
    trainDocument.Reordered turnedTrainDocument ∧ trainDocument.error? = none ∧
      turnedTrainDocument.error? = none ∧ (∃ g, generate trainDocument .empty {} = .ok g) ∧
      generate trainDocument .empty {} = generate turnedTrainDocument .empty {} := by
  have options : TypeExpr.Reordered (.table ⟨[speedOption, targetOption], [], none⟩)
      (.table ⟨[targetOption, speedOption], [], none⟩) :=
    .table (.mk none (.permuted (by decide) (.swap _ _ _) (.refl fun p _ => .refl p)) (.kept .nil))
  have move : Method.Reordered (moveMethod [speedOption, targetOption])
      (moveMethod [targetOption, speedOption]) :=
    .intro (.kept (.cons (.mk _ _ _ _ options) .nil)) (.kept .nil) .none (.kept .nil)
  have methods : Shuffled Method.Reordered
      [helpWithTrains, moveMethod [speedOption, targetOption]]
      [moveMethod [targetOption, speedOption], helpWithTrains] :=
    .permuted (by decide) (.swap _ _ _) (.kept (.cons move (.cons (.refl _) .nil)))
  have values : Shuffled Eq [(⟨"moving", 0, ""⟩ : NamedOption), ⟨"parked", 1, ""⟩]
      [⟨"parked", 1, ""⟩, ⟨"moving", 0, ""⟩] :=
    .permuted (by decide) (.swap _ _ _) (.refl fun _ _ => rfl)
  have reordered : trainDocument.Reordered turnedTrainDocument :=
    { Document.Reordered.refl trainDocument with
      classes := .kept (.cons (.intro methods (.refl fun a _ => .refl a) .nil) .nil)
      defines := .kept (.cons (.node _ _ _ values (.kept .nil)) .nil) }
  have valid : trainDocument.error? = none := by decide +kernel
  have valid' : turnedTrainDocument.error? = none := by decide +kernel
  have isOk : (generate trainDocument .empty {}).isOk := by decide +kernel
  have unique : ∀ c ∈ trainDocument.classes,
      (c.methods.map (·.name)).Nodup ∧ (c.attributes.map (·.name)).Nodup := by
    decide +kernel
  exact ⟨reordered, valid, valid', exists_generation_of_isOk isOk,
    generate_reordered reordered valid valid' unique .empty {}⟩

end Typings

import Typings.Proofs.Segments

/-! # Overrides that fit

A run on a usable document succeeds exactly when every override fits the entity of its name. What
fits is said in terms of the declarations of the overrides, without reference to the run.

* `OverridesFit`: every override fits its entity.
* `generate_succeeds_iff`: the condition for the success of a run.
-/

namespace Typings

open Schema (ConceptKind Define Document)

/-! ## What fits -/

/-- Each member that the override has for an asked name, the first one of the name, has the asked
    shape. -/
def Override.HasShapes (o : Override) (asked : List AskedMember) : Prop :=
  ∀ a ∈ asked, ∀ found, o.member? a.name = some found → found.shape = a.shape

/-- A type that can be the index of an array-like class: a reference, or a type with an index
    signature and nothing else. -/
def Ty.IsIndex (ty : Ty) : Prop :=
  (∃ name args, ty = .reference name args) ∨
    ∃ keyName key value readonly, ty = .literal [.index keyName key value readonly]

/-- The declaration can stand for the node: a namespace, unless the node has values only, or an
    enumeration, if there are no nodes below. -/
def Schema.Define.StandsFor (node : Define) (kind : DeclarationKind) : Prop :=
  kind = .nameSpace ∧ (node.subkeys ≠ [] ∨ node.values = []) ∨
    kind = .enumeration ∧ node.subkeys = []

/-- Whether a concept may be given as an interface: one in prose, a structure, a flag set, and a
    table without variants. -/
def Schema.ConceptKind.MayBeInterface : ConceptKind → Prop
  | .prose => True
  | .structure _ => True
  | .flag _ => True
  | .table shape => shape.groups = []
  | .filter shape => shape.groups = []
  | .union _ => False
  | .enumeration _ => False
  | .tableOrArray _ => False

/-- Every override fits the entity of its name, if there is one. -/
structure OverridesFit (document : Document) (store : OverrideStore) (config : Config) : Prop where
  builtins : ∀ builtin ∈ document.builtinTypes, ∀ o, store.get? builtin.name = some o →
    o.declaration.kind = .interface ∨ o.declaration.kind = .alias
  constants : ∀ d ∈ document.defines, ∀ path node,
    d.Reaches store config.constantsRoot path node → ∀ o, store.get? path = some o →
      node.StandsFor o.declaration.kind
  events : ∀ event ∈ document.events, ∀ o, store.get? (Synth.eventName event) = some o →
    o.declaration.kind = .interface ∧ o.HasShapes event.asked
  classes : ∀ c ∈ document.classes, ∀ o, store.get? c.name = some o →
    o.declaration.kind = .interface ∧ o.HasShapes c.asked ∧
      (o.isArrayLike → ∀ shape, o.indexShape = some shape → shape.IsIndex)
  concepts : ∀ concept ∈ document.concepts, ∀ o, store.get? concept.name = some o →
    o.declaration.kind = .alias ∨
      o.declaration.kind = .interface ∧ concept.kind.MayBeInterface ∧
        o.HasShapes concept.kind.asked

/-! ## What the run checks -/

namespace Override

variable {o : Override}

theorem kind_eq_structural (kinded : o.IsKinded) :
    o.kind = .structural ↔ o.declaration.kind = .interface := by
  rw [← Declaration.overrideKind?_eq_structural, kinded, Option.some_inj]

theorem kind_eq_alias (kinded : o.IsKinded) :
    o.kind = .alias ↔ o.declaration.kind = .alias := by
  rw [← Declaration.overrideKind?_eq_alias, kinded, Option.some_inj]

theorem kind_eq_nameSpace (kinded : o.IsKinded) :
    o.kind = .nameSpace ↔ o.declaration.kind = .nameSpace ∨ o.declaration.kind = .enumeration := by
  rw [← Declaration.overrideKind?_eq_nameSpace, kinded, Option.some_inj]

end Override

theorem isIndexShape_iff {ty : Ty} : Synth.isIndexShape ty = true ↔ ty.IsIndex := by
  unfold Synth.isIndexShape Ty.IsIndex
  split
  next name args => exact iff_of_true rfl (.inl ⟨name, args, rfl⟩)
  next keyName key value readonly =>
    exact iff_of_true rfl (.inr ⟨keyName, key, value, readonly, rfl⟩)
  next noReference noIndex =>
    refine iff_of_false Bool.false_ne_true ?_
    rintro (⟨name, args, rfl⟩ | ⟨keyName, key, value, readonly, rfl⟩)
    · exact noReference name args rfl
    · exact noIndex keyName key value readonly rfl

theorem fitsNode_iff {kind : DeclarationKind} {node : Define} :
    Synth.fitsNode kind (!node.values.isEmpty) (!node.subkeys.isEmpty) = true ↔
      node.StandsFor kind := by
  unfold Schema.Define.StandsFor
  cases kind <;> simp [Synth.fitsNode, or_comm]

theorem structural_mem_allowed {kind : ConceptKind} :
    .structural ∈ kind.allowed ↔ kind.MayBeInterface := by
  cases kind with
  | table shape | filter shape =>
    simp only [ConceptKind.allowed, ConceptKind.MayBeInterface, Schema.TableShape.allowed]
    cases shape.groups <;> simp
  | _ => simp [ConceptKind.allowed, ConceptKind.MayBeInterface]

theorem alias_mem_allowed (kind : ConceptKind) : .alias ∈ kind.allowed := by
  cases kind with
  | table shape | filter shape =>
    simp only [ConceptKind.allowed, Schema.TableShape.allowed]
    cases shape.groups <;> simp
  | _ => simp [ConceptKind.allowed]

theorem nameSpace_not_mem_allowed (kind : ConceptKind) : .nameSpace ∉ kind.allowed := by
  cases kind with
  | table shape | filter shape =>
    simp only [ConceptKind.allowed, Schema.TableShape.allowed]
    cases shape.groups <;> simp
  | _ => simp [ConceptKind.allowed]

section Conditions

variable {store : OverrideStore} {name : String}

/-- An entity accepts its override for its kind and, if it is an interface, for the shapes of its
members. -/
theorem accepts_iff {allowed : List OverrideKind} {asked : List AskedMember} :
    Synth.Accepts store name allowed asked ↔
      ∀ o, store.get? name = some o →
        o.kind ∈ allowed ∧ (o.kind = .structural → o.HasShapes asked) := by
  rw [Synth.Accepts, OverrideStore.Allows]
  -- Only an interface is merged, so only an interface has members that may not fit.
  constructor
  · rintro ⟨allows, fits⟩ o isFound
    refine ⟨allows o isFound, fun isStructural a isAsked => ?_⟩
    have fits := fits a isAsked
    rwa [OverrideStore.structural?_eq_some.2 ⟨isFound, isStructural⟩] at fits
  · intro accepts
    refine ⟨fun o isFound => (accepts o isFound).1, fun a isAsked found isMember => ?_⟩
    obtain ⟨o, isMerged, isMember⟩ := Option.bind_eq_some_iff.1 isMember
    obtain ⟨isFound, isStructural⟩ := OverrideStore.structural?_eq_some.1 isMerged
    exact (accepts o isFound).2 isStructural a isAsked found isMember

theorem indexFits_iff :
    Synth.IndexFits (store.structural? name) ↔
      ∀ o, store.get? name = some o → o.kind = .structural → o.isArrayLike →
        ∀ shape, o.indexShape = some shape → shape.IsIndex := by
  rw [Synth.IndexFits]
  constructor
  · intro fits o isFound isStructural arrayLike shape given
    rw [OverrideStore.structural?_eq_some.2 ⟨isFound, isStructural⟩] at fits
    exact isIndexShape_iff.1 (fits arrayLike shape given)
  · intro fits arrayLike shape given
    obtain ⟨o, isMerged, given⟩ := Option.bind_eq_some_iff.1 given
    obtain ⟨isFound, isStructural⟩ := OverrideStore.structural?_eq_some.1 isMerged
    rw [isMerged, Option.any_some] at arrayLike
    exact isIndexShape_iff.2 (fits o isFound isStructural arrayLike shape given)

variable (kinded : ∀ o, store.get? name = some o → o.IsKinded)

include kinded

theorem allows_interface_or_alias :
    store.Allows name [.structural, .alias] ↔
      ∀ o, store.get? name = some o →
        o.declaration.kind = .interface ∨ o.declaration.kind = .alias := by
  refine forall₂_congr fun o isFound => ?_
  simp [Override.kind_eq_structural (kinded o isFound), Override.kind_eq_alias (kinded o isFound)]

/-- What can stand for a node is a question of kinds. -/
theorem nodeFits_iff {node : Define} :
    Synth.NodeFits store name node ↔
      ∀ o, store.get? name = some o → node.StandsFor o.declaration.kind := by
  rw [Synth.NodeFits, OverrideStore.Allows, ← forall₂_and]
  refine forall₂_congr fun o isFound => ?_
  rw [fitsNode_iff, List.mem_singleton, Override.kind_eq_nameSpace (kinded o isFound)]
  -- What can stand for a node is a namespace or an enumeration in any case.
  refine and_iff_right_of_imp ?_
  rintro (⟨isKind, _⟩ | ⟨isKind, _⟩)
  · exact .inl isKind
  · exact .inr isKind

theorem accepts_interface_iff {asked : List AskedMember} :
    Synth.Accepts store name [.structural] asked ↔
      ∀ o, store.get? name = some o → o.declaration.kind = .interface ∧ o.HasShapes asked := by
  rw [accepts_iff]
  refine forall₂_congr fun o isFound => ?_
  rw [List.mem_singleton, ← Override.kind_eq_structural (kinded o isFound)]
  exact and_congr_right fun isStructural => forall_prop_of_true isStructural

theorem accepts_class_iff {asked : List AskedMember} :
    Synth.Accepts store name [.structural] asked ∧ Synth.IndexFits (store.structural? name) ↔
      ∀ o, store.get? name = some o → o.declaration.kind = .interface ∧ o.HasShapes asked ∧
        (o.isArrayLike → ∀ shape, o.indexShape = some shape → shape.IsIndex) := by
  rw [accepts_interface_iff kinded, indexFits_iff]
  constructor
  · rintro ⟨accepts, index⟩ o isFound
    obtain ⟨isInterface, shapes⟩ := accepts o isFound
    have isStructural := (Override.kind_eq_structural (kinded o isFound)).2 isInterface
    exact ⟨isInterface, shapes, index o isFound isStructural⟩
  · intro accepts
    refine ⟨fun o isFound => ?_, fun o isFound _ => (accepts o isFound).2.2⟩
    obtain ⟨isInterface, shapes, _⟩ := accepts o isFound
    exact ⟨isInterface, shapes⟩

/-- For a concept an alias always fits. An interface fits if the concept may be one. -/
theorem accepts_concept_iff {kind : ConceptKind} :
    Synth.Accepts store name kind.allowed kind.asked ↔
      ∀ o, store.get? name = some o →
        o.declaration.kind = .alias ∨
          o.declaration.kind = .interface ∧ kind.MayBeInterface ∧ o.HasShapes kind.asked := by
  rw [accepts_iff]
  refine forall₂_congr fun o isFound => ?_
  rw [← Override.kind_eq_structural (kinded o isFound), ← Override.kind_eq_alias (kinded o isFound)]
  -- An alias has no members that could be asked for, and no concept accepts a namespace.
  cases o.kind with
  | structural => simp [structural_mem_allowed]
  | «alias» => simp [alias_mem_allowed]
  | nameSpace => simp [nameSpace_not_mem_allowed]

end Conditions

/-! ## Success -/

variable {document : Document} {store : OverrideStore} {config : Config}

/-- The condition under which the entities settle is the one on the overrides alone. -/
theorem allFit_iff (kinded : ∀ name o, store.get? name = some o → o.IsKinded) :
    Synth.AllFit (.of document store config) ↔ OverridesFit document store config := by
  constructor
  · rintro ⟨builtins, constants, events, classes, concepts⟩
    exact
      { builtins := fun b isMember => (allows_interface_or_alias (kinded _)).1 (builtins b isMember)
        constants := fun d isMember path node reaches =>
          (nodeFits_iff (kinded _)).1 (constants d isMember path node reaches)
        events := fun event isMember =>
          (accepts_interface_iff (kinded _)).1 (events event isMember)
        classes := fun c isMember => (accepts_class_iff (kinded _)).1 (classes c isMember)
        concepts := fun concept isMember =>
          (accepts_concept_iff (kinded _)).1 (concepts concept isMember) }
  · intro fit
    exact
      ⟨fun b isMember => (allows_interface_or_alias (kinded _)).2 (fit.builtins b isMember),
        fun d isMember path node reaches =>
          (nodeFits_iff (kinded _)).2 (fit.constants d isMember path node reaches),
        fun event isMember => (accepts_interface_iff (kinded _)).2 (fit.events event isMember),
        fun c isMember => (accepts_class_iff (kinded _)).2 (fit.classes c isMember),
        fun concept isMember =>
          (accepts_concept_iff (kinded _)).2 (fit.concepts concept isMember)⟩

/-- A run on a usable document whose links are known succeeds exactly when every override fits the
    entity of its name. -/
theorem generate_succeeds_iff {entries : List OverrideEntry} (usable : document.error? = none)
    (known : Synth.AllKnown document.remarks)
    (made : OverrideStore.ofEntries entries = .ok store) :
    (∃ g, generate document store config = .ok g) ↔ OverridesFit document store config := by
  have kinded (name : String) (o : Override) (isFound : store.get? name = some o) : o.IsKinded :=
    OverrideStore.isKinded_of_ofEntries made isFound
  have runs : (∃ g, generate document store config = .ok g) ↔
      ∃ x session, Synth.Runs (Synth.segments (.of document store config)) {} x session := by
    simp [generate_eq_ok, usable]
  rw [runs, ← allFit_iff kinded]
  exact Synth.segments_succeeds (.of document store config) known {}

/-- A document with overrides for its array-like class and for its tree of constants. -/
def cameraDocument : Document where
  application := "factorio"
  stage := "runtime"
  apiVersion := 3
  builtinTypes := [⟨"double", 0, "A number."⟩]
  classes :=
    [{ name := "LuaCamera"
       order := 0
       description := "See [zoom](LuaCamera::zoom)."
       methods := [{ name := "zoom", order := 0 }]
       attributes := [.readOnly "valid" 0 (.named "boolean")] }]
  events := [{ name := "on_tick", order := 0, data := [.required "tick" 0 (.named "uint")] }]
  defines := [.node "alert" 0 "" [⟨"fire", 0, ""⟩] []]

def cameraEntries : List OverrideEntry :=
  [⟨.interface
      { name := "LuaCamera"
        supertypes := [.reference "Array" [.any]]
        members := [.method "zoom" [] none none, .property "extra" .any false false none] },
      some (.named "number")⟩,
    ⟨.enumeration { name := "defines.alert" }, none⟩]

theorem cameraDocument_fits :
    ∃ store, cameraDocument.error? = none ∧ Synth.AllKnown cameraDocument.remarks ∧
      OverrideStore.ofEntries cameraEntries = .ok store ∧
      (∃ g, generate cameraDocument store {} = .ok g) ∧ OverridesFit cameraDocument store {} := by
  have usable : cameraDocument.error? = none := by decide +kernel
  have known : Synth.AllKnown cameraDocument.remarks := by decide +kernel
  obtain ⟨store, made, isOk⟩ : ∃ store, OverrideStore.ofEntries cameraEntries = .ok store ∧
      (generate cameraDocument store {}).isOk :=
    ⟨⟨_, _, _, _⟩, rfl, by decide +kernel⟩
  have runs := exists_generation_of_isOk isOk
  exact ⟨store, usable, known, made, runs, (generate_succeeds_iff usable known made).1 runs⟩

end Typings

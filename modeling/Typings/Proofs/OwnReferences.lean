import Typings.Proofs.Outline

/-! # References of a run to its own declarations

The references that a run puts in of its own accord lead to declarations of its output. All but
those to the marker interface lead to a declaration further up.

* `OwnReference.Grounded`: a reference that leads to a name among those in front, or anywhere.
* `Grounded`: outlines whose references do so.
* `Schema.Document.marker_mem_outline`: the marker interface that a class extends is declared.
* `Schema.Document.outline_grounded`: the outline of an output is grounded.
* `generate_declares_references`: so the references in the output lead to its declarations.
-/

namespace Typings

open Schema (BuiltinType Class Concept Define Document Method)

/-! ## Grounded outlines -/

/-- The targets of the reference are among the names in front; for the marker interface it is enough
    to be among all names. -/
def OwnReference.Grounded (all front : List String) : OwnReference → Prop
  | .marker target => target ∈ all
  | reference => ∀ target ∈ reference.targets, target ∈ front

/-- The references of each outline are grounded in the names in front of it. -/
def Grounded (all front : List String) : List Outline → Prop
  | [] => True
  | outline :: rest =>
    (∀ reference ∈ outline.references, reference.Grounded all front)
      ∧ Grounded all (front ++ [outline.name]) rest

variable {all front front' : List String} {outlines outlines' : List Outline}

theorem OwnReference.Grounded.mono {reference : OwnReference}
    (grounded : reference.Grounded all front) (more : front ⊆ front') :
    reference.Grounded all front' := by
  cases reference with
  | marker => exact grounded
  | _ => exact fun target isTarget => more (grounded target isTarget)

theorem Grounded.mono (grounded : Grounded all front outlines) (more : front ⊆ front') :
    Grounded all front' outlines := by
  induction outlines generalizing front front' with
  | nil => trivial
  | cons outline rest ih =>
    obtain ⟨here, behind⟩ := grounded
    refine ⟨fun reference isOwn => (here reference isOwn).mono more, ih behind ?_⟩
    exact List.append_subset.2 ⟨List.subset_append_of_subset_left _ more, by simp⟩

theorem grounded_append :
    Grounded all front (outlines ++ outlines') ↔
      Grounded all front outlines ∧
        Grounded all (front ++ outlines.map Outline.name) outlines' := by
  induction outlines generalizing front with
  | nil => simp [Grounded]
  | cons outline rest ih => simp [Grounded, ih, and_assoc]

theorem Grounded.append (grounded : Grounded all front outlines)
    (grounded' : Grounded all [] outlines') : Grounded all front (outlines ++ outlines') :=
  grounded_append.2 ⟨grounded, grounded'.mono (List.nil_subset _)⟩

theorem Grounded.flatMap {α : Type} {xs : List α} {outline : α → List Outline}
    (grounded : ∀ x ∈ xs, Grounded all [] (outline x)) :
    Grounded all [] (xs.flatMap outline) := by
  induction xs with
  | nil => trivial
  | cons x xs ih =>
    rw [List.flatMap_cons]
    exact (grounded x List.mem_cons_self).append
      (ih fun y isMember => grounded y (List.mem_cons_of_mem x isMember))

theorem Grounded.single {name : String} {references : List OwnReference}
    (grounded : ∀ reference ∈ references, reference.Grounded all front) :
    Grounded all front [⟨name, references⟩] :=
  ⟨grounded, trivial⟩

theorem Grounded.plain (name : String) : Grounded all [] [⟨name, []⟩] :=
  .single (by simp)

theorem Grounded.map_plain {α : Type} (name : α → String) (xs : List α) :
    Grounded all [] (xs.map fun x => ⟨name x, []⟩) := by
  rw [List.map_eq_flatMap]
  exact .flatMap fun x _ => .plain (name x)

theorem Grounded.of_getElem? (grounded : Grounded all front outlines) {i : Nat} {outline : Outline}
    (isThere : outlines[i]? = some outline) {reference : OwnReference}
    (isOwn : reference ∈ outline.references) :
    reference.Grounded all (front ++ (outlines.take i).map Outline.name) := by
  induction outlines generalizing front i with
  | nil => cases isThere
  | cons first rest ih =>
    cases i with
    | zero =>
      cases isThere
      simpa using grounded.1 reference isOwn
    | succ i =>
      rw [List.take_succ_cons, List.map_cons, List.append_cons]
      exact ih grounded.2 isThere

/-! ## Blocks -/

/-- The base comes before the groups, and these before their union. -/
theorem VariantTable.outline_grounded (table : VariantTable) : Grounded all [] table.outline := by
  rw [VariantTable.outline, grounded_append]
  constructor
  · -- Each group refers to the base, which stands in front of all of them.
    refine ⟨by simp, ?_⟩
    induction Schema.inOrder table.groups with
    | nil => trivial
    | cons group groups ih =>
      refine ⟨?_, ih.mono (by simp)⟩
      simp [OwnReference.Grounded, OwnReference.targets]
  · refine .single ?_
    simp only [List.mem_singleton, forall_eq, OwnReference.Grounded, OwnReference.targets,
      VariantTable.optionNames]
    intro target isOption
    split at isOption <;> simp_all

theorem VariantTable.name_mem_outline (table : VariantTable) :
    table.name ∈ table.outline.map Outline.name := by
  simp [VariantTable.outline]

namespace Schema

variable {store : OverrideStore} {config : Config} {document : Document}

theorem Method.outline_grounded (method : Method) (entity : String) (o : Option Override) :
    Grounded all [] (method.outline entity o) :=
  .flatMap fun table _ => table.outline_grounded

/-- The tables that methods take are among the declarations that they need. -/
theorem Method.references_grounded {methods : List Method} {entity : String} {o : Option Override}
    {member : Method → Option String}
    (declared : (methods.flatMap fun m => m.outline entity o).map Outline.name ⊆ front) :
    ∀ reference ∈ methods.flatMap fun m => m.references entity o (member m),
      reference.Grounded all front := by
  intro reference isOwn
  obtain ⟨method, isMember, isOwn⟩ := List.mem_flatMap.1 isOwn
  obtain ⟨table, isTable, rfl⟩ := List.mem_map.1 isOwn
  intro target isTarget
  cases List.mem_singleton.1 isTarget
  apply declared
  obtain ⟨outline, isOutline, named⟩ := List.mem_map.1 table.name_mem_outline
  refine List.mem_map.2 ⟨outline, List.mem_flatMap.2 ⟨method, isMember, ?_⟩, named⟩
  exact List.mem_flatMap.2 ⟨table, isTable, isOutline⟩

theorem Class.helperOutline_grounded (c : Class) (o : Option Override) :
    Grounded all [] (c.helperOutline o) :=
  .append (.flatMap fun call _ => call.outline_grounded _ _)
    (.flatMap fun method _ => method.outline_grounded _ _)

section Marker

variable {marker : String}

/-- The tables that a class refers to are declared in front of it, and the marker interface
anywhere. -/
theorem Class.references_grounded {c : Class} (declared : c.hasTriad → marker ∈ all)
    (o : Option Override) :
    ∀ reference ∈ c.references o marker,
      reference.Grounded all ((c.helperOutline o).map Outline.name) := by
  intro reference isOwn
  rw [Class.references, Class.memberReferences, List.mem_append, List.mem_append] at isOwn
  rw [Class.helperOutline, List.map_append]
  obtain isMarker | isCall | isMethod := isOwn
  · split at isMarker
    next triad =>
      cases List.mem_singleton.1 isMarker
      exact declared triad
    next => cases isMarker
  · exact Method.references_grounded (List.subset_append_left _ _) reference isCall
  · exact Method.references_grounded (List.subset_append_right _ _) reference isMethod

/-- The declarations of a class come behind those that they refer to. -/
theorem Class.outline_grounded {c : Class} (declared : c.hasTriad → marker ∈ all)
    (o : Option Override) : Grounded all [] (c.outline o marker) := by
  rw [Class.outline, grounded_append]
  refine ⟨c.helperOutline_grounded o, ?_⟩
  have members := Class.references_grounded declared o
  split
  next =>
    refine ⟨members, by simp, ?_, trivial⟩
    simp [OwnReference.Grounded, OwnReference.targets]
  next => exact .single members

theorem Class.markerOutline_grounded (c : Class) : Grounded all [] (c.markerOutline marker) := by
  rw [Class.markerOutline, grounded_append]
  refine ⟨.flatMap fun method _ => method.outline_grounded _ _, .single ?_⟩
  exact Method.references_grounded (List.Subset.refl _)

end Marker

theorem Concept.outline_grounded (concept : Concept) :
    Grounded all [] (concept.outline store) := by
  rw [Concept.outline]
  split
  next table _ =>
    split
    · exact .plain concept.name
    · exact table.outline_grounded
  next => exact .plain concept.name

theorem BuiltinType.outline_grounded (builtin : BuiltinType) :
    Grounded all [] (builtin.outline store config) := by
  rw [BuiltinType.outline]
  split
  · trivial
  · exact .plain builtin.name

theorem Document.markerOutline_grounded :
    Grounded all [] (document.markerOutline store config) := by
  rw [Document.markerOutline]
  split
  · trivial
  · exact .flatMap fun c _ => c.markerOutline_grounded

/-! ## The marker interface -/

theorem BuiltinType.name_mem_outline {builtin : BuiltinType}
    (overridden : store.contains builtin.name) :
    builtin.name ∈ (builtin.outline store config).map Outline.name := by
  rw [OverrideStore.contains_eq_isSome_get?] at overridden
  rw [BuiltinType.outline, if_neg]
  · exact List.mem_singleton_self _
  · rintro ⟨_, absent⟩
    simp [absent] at overridden

theorem Class.name_mem_outline (c : Class) (o : Option Override) (marker : String) :
    c.name ∈ (c.outline o marker).map Outline.name := by
  rw [Class.outline]
  split <;> simp

theorem Concept.name_mem_outline {concept : Concept} (overridden : store.contains concept.name) :
    concept.name ∈ (concept.outline store).map Outline.name := by
  rw [Concept.outline]
  split <;> simp [overridden]

/-- The path of a node has a dot in it. -/
theorem Define.Reaches.dotted {parent path : String} {d node : Define}
    (reaches : d.Reaches store parent path node) : '.' ∈ path.toList := by
  induction reaches with
  | here parent d => simp [qualified]
  | deeper _ _ _ ih => exact ih

/-- An override is declared by the entity that asks for it, or else as it is. -/
theorem Document.overridden_mem_outline {name : String} (overridden : store.contains name)
    (plain : '.' ∉ name.toList) : name ∈ (document.outline store config).map Outline.name := by
  simp only [Document.outline, List.map_append, List.mem_append, List.map_flatMap, List.map_map,
    List.mem_flatMap, List.mem_map, mem_inOrder, or_assoc]
  -- An entity declares the override that it asks for; only a node of the tree of constants declares
  -- it further inside, and the path of a node has a dot.
  by_cases asked : document.AsksFor store config.constantsRoot name
  · obtain ⟨builtin, isMember, rfl⟩ | ⟨d, _, node, reaches⟩ | ⟨event, isMember, named⟩ |
      ⟨c, isMember, rfl⟩ | ⟨concept, isMember, rfl⟩ := asked
    · exact .inl ⟨builtin, isMember, List.mem_map.1 (BuiltinType.name_mem_outline overridden)⟩
    · exact (plain reaches.dotted).elim
    · exact .inr (.inr (.inl ⟨event, isMember, named⟩))
    · exact .inr (.inr (.inr (.inl ⟨c, isMember, List.mem_map.1 (c.name_mem_outline _ _)⟩)))
    · exact .inr (.inr (.inr (.inr (.inr (.inl ⟨concept, isMember,
        List.mem_map.1 (Concept.name_mem_outline overridden)⟩)))))
  · obtain ⟨o, isMember, rfl⟩ : ∃ o ∈ store.overrides, o.name = name :=
      List.mem_map.1 (OverrideStore.contains_iff.1 overridden)
    have unasked : o ∈ store.overrides.filter fun o =>
        ¬ document.AsksFor store config.constantsRoot o.name := by
      simp [isMember, asked]
    exact .inr (.inr (.inr (.inr (.inr (.inr (.inr ⟨o, unasked, rfl⟩))))))

/-- The marker interface that a class extends is declared, as the override that there is of it or
    from the first such class. -/
theorem Document.marker_mem_outline (plain : '.' ∉ config.markerSupertype.toList)
    (extended : ∃ c ∈ document.classes, c.hasTriad) :
    config.markerSupertype ∈ (document.outline store config).map Outline.name := by
  by_cases overridden : store.contains config.markerSupertype
  · exact Document.overridden_mem_outline overridden plain
  · obtain ⟨first, isFirst⟩ : ∃ c, (inOrder document.classes).find? Class.hasTriad = some c :=
      Option.isSome_iff_exists.1 (List.find?_isSome.2 (by simpa [mem_inOrder] using extended))
    have isMarker : config.markerSupertype ∈
        (document.markerOutline store config).map Outline.name := by
      simp [Document.markerOutline, overridden, isFirst, Class.markerOutline]
    simp only [Document.outline, List.map_append, List.mem_append, isMarker, true_or, or_true]

/-! ## The output -/

/-- Everything that a run refers to of its own accord is declared in front. Only the marker
interface may come later. -/
theorem Document.outline_grounded (plain : '.' ∉ config.markerSupertype.toList) :
    Grounded ((document.outline store config).map Outline.name) []
      (document.outline store config) := by
  have classes : ∀ c ∈ inOrder document.classes,
      Grounded ((document.outline store config).map Outline.name) []
        (c.outline (store.structural? c.name) config.markerSupertype) := by
    -- The marker interface may stand behind the class, so that all names are needed here.
    intro c isMember
    apply Class.outline_grounded
    intro triad
    exact Document.marker_mem_outline plain ⟨c, mem_inOrder.1 isMember, triad⟩
  refine .append (.append (.append (.append (.append (.append
    (.flatMap fun builtin _ => builtin.outline_grounded) ?_)
    (.map_plain _ _))
    (.append (.flatMap classes) Document.markerOutline_grounded))
    (.flatMap fun concept _ => concept.outline_grounded))
    (.map_plain _ _)) (.map_plain _ _)
  split
  · trivial
  · exact .plain _

end Schema

/-- The declarations of an output have the references of its outline, and these lead to
    declarations further up; those to the marker interface lead to a declaration of the output. -/
theorem generate_declares_references {document : Document} {store : OverrideStore}
    {config : Config} {g : Generation} (plain : '.' ∉ config.markerSupertype.toList)
    (success : generate document store config = .ok g) :
    (document.outline store config).length = g.declarations.length ∧
    ∀ (i : Nat) (outline : Outline) (decl : Declaration),
      (document.outline store config)[i]? = some outline → g.declarations[i]? = some decl →
        decl.name = outline.name ∧
        ∀ reference ∈ outline.references, decl.Holds reference ∧
          reference.Grounded (g.declarations.map Declaration.name)
            ((g.declarations.take i).map Declaration.name) := by
  obtain ⟨_, made, session, runs, rfl⟩ := generate_eq_ok.1 success
  have describes := Synth.segments_outline runs
  have sameNames : (document.outline store config).map Outline.name =
      made.declarations.map Declaration.name :=
    Synth.map_eq_of_forall₂ describes fun outline decl here => here.1.symm
  refine ⟨describes.length_eq, fun i outline decl isOutline isDecl => ?_⟩
  obtain ⟨below, rfl⟩ := List.getElem?_eq_some_iff.1 isOutline
  obtain ⟨below', rfl⟩ := List.getElem?_eq_some_iff.1 isDecl
  obtain ⟨named, holds⟩ := describes.get below below'
  refine ⟨named, fun reference isOwn => ⟨holds reference isOwn, ?_⟩⟩
  have grounded := (Document.outline_grounded plain).of_getElem? isOutline isOwn
  rwa [List.nil_append, List.map_take, sameNames, ← List.map_take] at grounded

/-- A document with a class that extends the marker interface and is split by its override, and with
    tables that have variants. -/
def turretDocument : Document where
  application := "factorio"
  stage := "runtime"
  apiVersion := 3
  classes :=
    [{ name := "LuaTurret"
       order := 0
       methods :=
         [{ name := "help", order := 0, takesTable := true, groups := [⟨"long", 0, "", []⟩] },
           { name := "aim_at", order := 1, takesTable := true, groups := [⟨"unit", 0, "", []⟩] },
           { name := "fire", order := 2, takesTable := true, groups := [⟨"unit", 0, "", []⟩] }]
       attributes :=
         [.readOnly "valid" 0 (.named "boolean"), .readOnly "object_name" 1 (.named "string")]
       operators := [.index (.readOnly "index" 0 (.named "uint"))] }]
  concepts :=
    [{ name := "Ammo"
       order := 0
       kind := .table ⟨[], [⟨"shell", 0, "", []⟩, ⟨"laser", 1, "", []⟩], none⟩ }]

def turretEntries : List OverrideEntry :=
  [⟨.interface
    { name := "LuaTurret"
      supertypes := [.reference "ReadonlyArray" [.keyword .number]]
      members := [.method "fire" [] none none] }, none⟩]

/-- The references in the output, in the order of its declarations. -/
def turretReferences : List OwnReference :=
  [.base "BaseLuaTurretAimAtParams", .options ["UnitLuaTurretAimAtParams"],
    .marker "LuaObjectBase", .params (some "aim_at") "LuaTurretAimAtParams",
    .parts ["LuaTurretMembers", "LuaTurretIndex"],
    .base "BaseLuaObjectBaseHelpParams", .options ["LongLuaObjectBaseHelpParams"],
    .params (some "help") "LuaObjectBaseHelpParams",
    .base "BaseAmmo", .base "BaseAmmo", .options ["ShellAmmo", "LaserAmmo"]]

theorem turretDocument_declares_references :
    ∃ store g, OverrideStore.ofEntries turretEntries = .ok store ∧
      '.' ∉ (({} : Config).markerSupertype).toList ∧
      generate turretDocument store {} = .ok g ∧
      (turretDocument.outline store {}).flatMap Outline.references = turretReferences ∧
      (turretDocument.outline store {}).length = g.declarations.length ∧
      ∀ (i : Nat) (outline : Outline) (decl : Declaration),
        (turretDocument.outline store {})[i]? = some outline → g.declarations[i]? = some decl →
          decl.name = outline.name ∧
          ∀ reference ∈ outline.references, decl.Holds reference ∧
            reference.Grounded (g.declarations.map Declaration.name)
              ((g.declarations.take i).map Declaration.name) := by
  obtain ⟨store, made, isOk, references⟩ :
      ∃ store, OverrideStore.ofEntries turretEntries = .ok store ∧
        (generate turretDocument store {}).isOk ∧
        (turretDocument.outline store {}).flatMap Outline.references = turretReferences :=
    ⟨⟨_, _, _, _⟩, rfl, by decide +kernel, by decide +kernel⟩
  have plain : '.' ∉ (({} : Config).markerSupertype).toList := by decide
  obtain ⟨g, success⟩ := exists_generation_of_isOk isOk
  exact ⟨store, g, made, plain, success, references, generate_declares_references plain success⟩

end Typings

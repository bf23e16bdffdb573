import Typings.Proofs.EmittedTree

/-! # Pages of entities

The documentation of an entity refers to the page of the entity. The reference is made along with the
declarations, and it is looked up in the names of the document.

* `Context.isSome_lookup?`: the names that lead to a page.
* `Context.FindsEntities`: the references of entities to their pages lead there.
* `Context.of_findsEntities`: they do so in every run.
-/

namespace Typings

open Schema (BuiltinType Class Concept Define Document Event GlobalObject)

/-- The path of a node that is reached is among the names in the tree. -/
theorem Schema.Define.Reaches.mem_paths {store : OverrideStore} {parent path : String}
    {d node : Define} (reaches : d.Reaches store parent path node) : path ∈ d.paths parent := by
  induction reaches with
  | here parent d => exact Define.mem_paths.2 (.inl rfl)
  | deeper _ isMember _ ih =>
    rw [Define.mem_paths, Define.listPaths_eq_flatMap]
    exact .inr (.inr (List.mem_flatMap.2 ⟨_, isMember, ih⟩))

theorem any_beq_of_mem {α : Type} (name : α → String) {x : α} {xs : List α} (isMember : x ∈ xs) :
    xs.any (name · == name x) :=
  List.any_eq_true.2 ⟨x, isMember, beq_self_eq_true _⟩

namespace Context

/-- A name has a page if it is that of an entity of any category. -/
theorem isSome_entityPage? {ctx : Context} {name : String} :
    (ctx.entityPage? name).isSome ↔
      ctx.isBuiltin name ∨ ctx.isClass name ∨ ctx.isEvent name ∨ ctx.isDefine name ∨
        ctx.isConcept name ∨ ctx.isGlobal name := by
  simp only [entityPage?, apply_ite Option.isSome, Option.isSome_some, Option.isSome_none]
  grind

/-- A name of any category is found. -/
theorem isSome_lookup? {ctx : Context} {name : String}
    (isEntity : ctx.isBuiltin name ∨ ctx.isClass name ∨ ctx.isEvent name ∨ ctx.isDefine name ∨
      ctx.isConcept name ∨ ctx.isGlobal name) : (ctx.lookup? name).isSome := by
  obtain ⟨url, isFound⟩ := Option.isSome_iff_exists.1 (isSome_entityPage?.2 isEntity)
  rw [lookup?, isFound]
  rfl

/-- The names under which entities refer to their pages are found: those of the entities of each
category, and for a node of the tree of constants its path, whatever the overrides of other nodes. -/
structure FindsEntities (ctx : Context) : Prop where
  builtins : ∀ b ∈ ctx.document.builtinTypes, (ctx.lookup? b.name).isSome
  classes : ∀ c ∈ ctx.document.classes, (ctx.lookup? c.name).isSome
  events : ∀ event ∈ ctx.document.events, (ctx.lookup? event.name).isSome
  nodes : ∀ d ∈ ctx.document.defines, ∀ (store : OverrideStore) (path : String) (node : Define),
    d.Reaches store ctx.config.constantsRoot path node → (ctx.lookup? path).isSome
  concepts : ∀ concept ∈ ctx.document.concepts, (ctx.lookup? concept.name).isSome
  globals : ∀ object ∈ ctx.document.globalObjects, (ctx.lookup? object.name).isSome

/-- The look-up goes through the names of all categories, and finds every entity among them. -/
theorem of_findsEntities (document : Document) (store : OverrideStore) (config : Config) :
    (Context.of document store config).FindsEntities where
  builtins _ isMember := isSome_lookup? (.inl (any_beq_of_mem BuiltinType.name isMember))
  classes _ isMember := isSome_lookup? (.inr (.inl (any_beq_of_mem Class.name isMember)))
  events _ isMember := isSome_lookup? (.inr (.inr (.inl (any_beq_of_mem Event.name isMember))))
  nodes d isMember store' path node reaches := by
    have isThere : path ∈ Define.listPaths config.constantsRoot document.defines := by
      rw [Define.listPaths_eq_flatMap]
      exact List.mem_flatMap.2 ⟨d, isMember, reaches.mem_paths⟩
    exact isSome_lookup? (.inr (.inr (.inr (.inl (List.contains_iff_mem.2 isThere)))))
  concepts _ isMember :=
    isSome_lookup? (.inr (.inr (.inr (.inr (.inl (any_beq_of_mem Concept.name isMember))))))
  globals _ isMember :=
    isSome_lookup? (.inr (.inr (.inr (.inr (.inr (any_beq_of_mem GlobalObject.name isMember))))))

end Context

end Typings

import Typings.Proofs.Merging
import Typings.Synthesis.Constants

/-! # Overrides of entities

The positions in a store lead to the overrides of the names. An entity has the override of its name,
if the kind of the override is allowed. In a store that was made of entries, the kind of an override
says what it declares.

* `OverrideStore.get?_eq_some_iff`, `OverrideStore.get?_eq_find?`: what is found by the positions.
* `OverrideStore.Allows`: the condition under which an entity accepts its override.
* `OverrideStore.isKinded_of_ofEntries`: the kind of an override is that of its declaration.
* `Synth.findOverride_bind_succeeds`, `Synth.findOverride_bind_uses`: what a step does that looks up
  an override first.
-/

namespace Typings

/-! ## Kinds of declarations -/

namespace Declaration

@[simp] theorem overrideKind?_withDoc (doc : Option String) (decl : Declaration) :
    (decl.withDoc doc).overrideKind? = decl.overrideKind? := by
  cases decl <;> rfl

@[simp] theorem name_withDoc (doc : Option String) (decl : Declaration) :
    (decl.withDoc doc).name = decl.name := by
  cases decl <;> rfl

theorem overrideKind?_eq_structural {decl : Declaration} :
    decl.overrideKind? = some .structural ↔ decl.kind = .interface := by
  cases decl <;> simp [overrideKind?, kind]

theorem overrideKind?_eq_alias {decl : Declaration} :
    decl.overrideKind? = some .alias ↔ decl.kind = .alias := by
  cases decl <;> simp [overrideKind?, kind]

theorem overrideKind?_eq_nameSpace {decl : Declaration} :
    decl.overrideKind? = some .nameSpace ↔ decl.kind = .nameSpace ∨ decl.kind = .enumeration := by
  cases decl <;> simp [overrideKind?, kind]

end Declaration

def Override.IsKinded (o : Override) : Prop :=
  o.declaration.overrideKind? = some o.kind

theorem Override.isKinded_of_ofEntry {entry : OverrideEntry} {o : Override}
    (made : Override.ofEntry entry = .ok o) : o.IsKinded := by
  rw [Override.ofEntry] at made
  split at made
  next => cases made
  next kind isKind =>
    split at made
    next => cases made
    next =>
      cases made
      simpa only [Override.IsKinded, Declaration.overrideKind?_withDoc] using isKind

/-! ## Stores -/

/-- The positions of names that are entered one after the other. -/
def Positions.ofNames (names : List String) : Positions :=
  names.zipIdx.foldl (fun positions (name, i) => positions.insert name i) ∅

/-- Names that are different can be entered one after the other. -/
theorem Positions.locate_ofNames {names : List String} (distinct : names.Nodup) :
    (Positions.ofNames names).Locate names := by
  induction names using List.reverseRecOn with
  | nil => exact locate_empty
  | append_singleton front name ih =>
    rw [← List.concat_eq_append, List.nodup_concat] at distinct
    have located := ih distinct.2
    have entered : ofNames (front ++ [name]) = (ofNames front).insert name front.length := by
      simp [ofNames, List.zipIdx_append]
    rw [entered]
    exact located.append_singleton (mt located.mem_iff.1 distinct.1)

namespace OverrideStore

/-- The store of overrides with different names. -/
def ofDistinct (overrides : List Override) (distinct : (overrides.map Override.name).Nodup)
    (source : OverrideSource) : OverrideStore :=
  ⟨overrides, .ofNames (overrides.map Override.name), Positions.locate_ofNames distinct, source⟩

variable {store : OverrideStore} {name : String} {o : Override}

/-- The positions lead to the overrides of the names. -/
theorem get?_eq_some_iff :
    store.get? name = some o ↔ o ∈ store.overrides ∧ o.name = name := by
  have located (i : Nat) : store.positions[name]? = some i ↔
      ∃ o', store.overrides[i]? = some o' ∧ o'.name = name := by
    rw [store.located name i, List.getElem?_map, Option.map_eq_some_iff]
  rw [get?, Option.pmap_eq_some_iff]
  constructor
  · rintro ⟨i, isBefore, found, rfl⟩
    obtain ⟨o', isAt, isNamed⟩ := (located i).1 found
    obtain ⟨_, rfl⟩ := List.getElem?_eq_some_iff.1 isAt
    exact ⟨List.getElem_mem isBefore, isNamed⟩
  · rintro ⟨isMember, isNamed⟩
    obtain ⟨i, isAt⟩ := List.mem_iff_getElem?.1 isMember
    obtain ⟨isBefore, same⟩ := List.getElem?_eq_some_iff.1 isAt
    exact ⟨i, isBefore, (located i).2 ⟨o, isAt, isNamed⟩, same.symm⟩

theorem name_of_get? (isFound : store.get? name = some o) : o.name = name :=
  (get?_eq_some_iff.1 isFound).2

theorem mem_of_get? (isFound : store.get? name = some o) : o ∈ store.overrides :=
  (get?_eq_some_iff.1 isFound).1

theorem get?_name (isMember : o ∈ store.overrides) : store.get? o.name = some o :=
  get?_eq_some_iff.2 ⟨isMember, rfl⟩

theorem isSome_get?_iff :
    (store.get? name).isSome ↔ name ∈ store.overrides.map Override.name := by
  simp only [Option.isSome_iff_exists, get?_eq_some_iff, List.mem_map]

theorem contains_iff : store.contains name ↔ name ∈ store.overrides.map Override.name :=
  store.located.mem_iff

theorem contains_eq_isSome_get? : store.contains name = (store.get? name).isSome := by
  rw [Bool.eq_iff_iff, contains_iff, isSome_get?_iff]

/-- Without the positions, it is the first override of the name that is found. -/
theorem get?_eq_find? : store.get? name = store.overrides.find? (·.name == name) := by
  cases isFound : store.overrides.find? (·.name == name) with
  | none =>
    rw [← Option.not_isSome_iff_eq_none, isSome_get?_iff, List.mem_map]
    rintro ⟨o, isMember, isNamed⟩
    exact List.find?_eq_none.1 isFound o isMember (beq_iff_eq.2 isNamed)
  | some o =>
    have isNamed := List.find?_some isFound
    exact get?_eq_some_iff.2 ⟨List.mem_of_find?_eq_some isFound, beq_iff_eq.1 isNamed⟩

/-- A push that is not refused appends the override, and leaves the source. -/
theorem appended_of_push {store' : OverrideStore} (pushed : store.push o = .ok store') :
    store'.overrides = store.overrides ++ [o] ∧ store'.source = store.source := by
  rw [push] at pushed
  split at pushed
  next => cases pushed
  next =>
    cases pushed
    exact ⟨rfl, rfl⟩

/-- All overrides of a store have kinds, as entries without one are refused. -/
theorem isKinded_of_pushEntries {entries : List OverrideEntry} {store' : OverrideStore}
    (pushed : store.pushEntries entries = .ok store')
    (before : ∀ o ∈ store.overrides, o.IsKinded) : ∀ o ∈ store'.overrides, o.IsKinded := by
  induction entries generalizing store with
  | nil =>
    cases pushed
    exact before
  | cons entry entries ih =>
    simp only [pushEntries, bind, Except.bind] at pushed
    split at pushed
    next => cases pushed
    next new made =>
      split at pushed
      next => cases pushed
      next extended added =>
        -- The overrides of the longer store are the ones before and the new one.
        refine ih pushed fun o isMember => ?_
        rw [(appended_of_push added).1, List.mem_append, List.mem_singleton] at isMember
        obtain isMember | rfl := isMember
        · exact before o isMember
        · exact Override.isKinded_of_ofEntry made

theorem isKinded_of_ofEntries {entries : List OverrideEntry}
    (made : ofEntries entries = .ok store) (isFound : store.get? name = some o) : o.IsKinded :=
  isKinded_of_pushEntries made (by simp [empty]) o (mem_of_get? isFound)

/-- The override of the entity is of one of the kinds, if there is one. -/
def Allows (store : OverrideStore) (entity : String) (kinds : List OverrideKind) : Prop :=
  ∀ o, store.get? entity = some o → o.kind ∈ kinds

def structural? (store : OverrideStore) (entity : String) : Option Override :=
  (store.get? entity).filter (·.kind == .structural)

theorem structural?_eq_some :
    store.structural? name = some o ↔ store.get? name = some o ∧ o.kind = .structural := by
  simp [structural?, Option.filter_eq_some_iff]

theorem structural?_eq_get? (allows : store.Allows name [.structural]) :
    store.structural? name = store.get? name := by
  cases isFound : store.get? name with
  | none => rw [structural?, isFound, Option.filter_none]
  | some o =>
    rw [structural?_eq_some]
    exact ⟨isFound, List.mem_singleton.1 (allows o isFound)⟩

/-- Where interfaces and aliases are allowed, the override either stands for the entity or is the
    interface that the entity is merged with, if there is one. -/
theorem alias_or_structural (allows : store.Allows name [.structural, .alias]) :
    (∃ o, (store.get? name).filter (·.kind == .alias) = some o ∧ store.structural? name = none) ∨
      (store.get? name).filter (·.kind == .alias) = none ∧
        store.structural? name = store.get? name := by
  cases isFound : store.get? name with
  | none => exact .inr ⟨rfl, by rw [structural?, isFound, Option.filter_none]⟩
  | some o =>
    obtain isKind | isKind : o.kind = .structural ∨ o.kind = .alias := by
      simpa using allows o isFound
    · exact .inr ⟨by simp [isKind], by simp [structural?, isFound, isKind]⟩
    · exact .inl ⟨o, by simp [isKind], by simp [structural?, isFound, isKind]⟩

end OverrideStore

namespace Synth

variable {α : Type} {ctx : Context} {entity : String} {allowed : List OverrideKind}

/-! ## Steps that look up an override -/

theorem findOverride_absent (absent : ctx.overrides.get? entity = none) :
    findOverride ctx entity allowed = pure none := by
  rw [findOverride, absent]

theorem findOverride_allowed {o : Override} (isFound : ctx.overrides.get? entity = some o)
    (isAllowed : o.kind ∈ allowed) :
    findOverride ctx entity allowed = do use entity; return some o := by
  simp only [findOverride, isFound, List.contains_eq_mem, isAllowed, decide_true, if_true]

theorem findOverride_refused {o : Override} (isFound : ctx.overrides.get? entity = some o)
    (isRefused : o.kind ∉ allowed) :
    findOverride ctx entity allowed =
      throw (.overrideKindMismatch entity (.oneOf allowed) o.declaration.kind) := by
  simp only [findOverride, isFound, List.contains_eq_mem, isRefused, decide_false, if_false,
    Bool.false_eq_true]

/-- Finding an override fails only for its kind. -/
theorem findOverride_succeeds :
    SucceedsIff (findOverride ctx entity allowed) (ctx.overrides.Allows entity allowed) := by
  cases isFound : ctx.overrides.get? entity with
  | none =>
    rw [findOverride_absent isFound]
    exact (SucceedsIff.pure _).congr (by simp [OverrideStore.Allows, isFound])
  | some o =>
    by_cases isAllowed : o.kind ∈ allowed
    · rw [findOverride_allowed isFound isAllowed]
      refine ((SucceedsIff.use entity).bind fun _ => .pure _).congr ?_
      simp [OverrideStore.Allows, isFound, isAllowed]
    · rw [findOverride_refused isFound isAllowed]
      exact (SucceedsIff.throw _).congr (by simp [OverrideStore.Allows, isFound, isAllowed])

/-- The names under which a lookup uses an override: the one it looks up, or none. -/
def lookedUp (ctx : Context) (entity : String) : List String :=
  if ctx.overrides.contains entity then [entity] else []

/-- An override counts as used as soon as it is found. -/
theorem findOverride_uses : Uses (findOverride ctx entity allowed) (lookedUp ctx entity) [] := by
  rw [lookedUp, OverrideStore.contains_eq_isSome_get?]
  cases isFound : ctx.overrides.get? entity with
  | none =>
    rw [findOverride_absent isFound]
    exact .pure _
  | some o =>
    by_cases isAllowed : o.kind ∈ allowed
    · rw [findOverride_allowed isFound isAllowed]
      exact (Uses.use entity).bind fun _ => .pure _
    · rw [findOverride_refused isFound isAllowed]
      exact .throw _

/-- What is found is the override of the name, whose kind is allowed. -/
theorem findOverride_result {s s' : Session} {result : Option Override}
    (runs : Runs (findOverride ctx entity allowed) s result s') :
    result = ctx.overrides.get? entity ∧ ctx.overrides.Allows entity allowed := by
  refine ⟨?_, (findOverride_succeeds s).1 ⟨result, s', runs⟩⟩
  cases isFound : ctx.overrides.get? entity with
  | none =>
    rw [findOverride_absent isFound] at runs
    exact (runs_pure.1 runs).1.symm
  | some o =>
    by_cases isAllowed : o.kind ∈ allowed
    · rw [findOverride_allowed isFound isAllowed] at runs
      obtain ⟨_, t, _, runs⟩ := runs_bind.1 runs
      exact (runs_pure.1 runs).1.symm
    · rw [findOverride_refused isFound isAllowed] at runs
      exact (not_runs_throw runs).elim

theorem runs_findOverride_bind {next : Option Override → Synth α} {s s'' : Session} {x : α}
    (runs : Runs (findOverride ctx entity allowed >>= next) s x s'') :
    ctx.overrides.Allows entity allowed ∧
      ∃ s', Runs (findOverride ctx entity allowed) s (ctx.overrides.get? entity) s' ∧
        Runs (next (ctx.overrides.get? entity)) s' x s'' := by
  obtain ⟨result, s', runs, continues⟩ := runs_bind.1 runs
  obtain ⟨rfl, allows⟩ := findOverride_result runs
  exact ⟨allows, s', runs, continues⟩

theorem findOverride_bind_succeeds {next : Option Override → Synth α} {p : Prop}
    (continues : ctx.overrides.Allows entity allowed →
      SucceedsIff (next (ctx.overrides.get? entity)) p) :
    SucceedsIff (findOverride ctx entity allowed >>= next)
      (ctx.overrides.Allows entity allowed ∧ p) :=
  findOverride_succeeds.bind_of_runs fun _ _ _ runs => by
    obtain ⟨rfl, allows⟩ := findOverride_result runs
    exact continues allows

theorem findOverride_bind_uses {next : Option Override → Synth α} {overrides : List String}
    {members : List (String × String)}
    (continues : ctx.overrides.Allows entity allowed →
      Uses (next (ctx.overrides.get? entity)) overrides members) :
    Uses (findOverride ctx entity allowed >>= next) (lookedUp ctx entity ++ overrides) members :=
  findOverride_uses.bind_of_runs fun _ _ _ runs => by
    obtain ⟨rfl, allows⟩ := findOverride_result runs
    exact continues allows

end Synth

end Typings

import Typings.Proofs.Segments

/-! # Overrides that are asked for

A run looks up the overrides of its entities, and it adds the ones that nothing asked for at the
end. So each override is used by the run or left over, and never both.

* `Schema.Document.AsksFor`: the names under which the entities of a document look up overrides.
* `OverrideStore.ofEntries_eq_ok`: what a store made of entries holds.
* `Synth.mem_usedOverrides`: the overrides that a run uses.
* `generate_accounts_for_overrides`: the overrides that are left over.
-/

namespace Typings

open Schema (Define Document)

/-! ## Names that are asked for -/

namespace Schema

mutual

/-- The paths of the nodes that a run reaches. -/
def Define.reachedPaths (store : OverrideStore) (parent : String) : Define → List String
  | .node name _ _ _ subkeys =>
    let path := qualified parent name
    path :: if store.contains path then [] else Define.listReachedPaths store path subkeys

def Define.listReachedPaths (store : OverrideStore) (parent : String) : List Define → List String
  | [] => []
  | d :: ds => d.reachedPaths store parent ++ Define.listReachedPaths store parent ds

end

theorem Define.listReachedPaths_eq_flatMap (store : OverrideStore) (parent : String)
    (ds : List Define) :
    Define.listReachedPaths store parent ds = ds.flatMap (Define.reachedPaths store parent) := by
  induction ds with
  | nil => rw [listReachedPaths, List.flatMap_nil]
  | cons d ds ih => rw [listReachedPaths, ih, List.flatMap_cons]

/-- An entity of the document asks for an override of the name: a builtin type, a class or a concept
    of the name, an event for its interface, or a node of the tree of constants at the path, unless
    a node above it has an override. -/
def Document.AsksFor (document : Document) (store : OverrideStore) (root name : String) : Prop :=
  (∃ builtin ∈ document.builtinTypes, builtin.name = name) ∨
  (∃ d ∈ document.defines, ∃ node, d.Reaches store root name node) ∨
  (∃ event ∈ document.events, Text.pascalCase event.name ++ "Event" = name) ∨
  (∃ c ∈ document.classes, c.name = name) ∨
  (∃ concept ∈ document.concepts, concept.name = name)

/-- The list of paths is that of the relation on nodes. -/
theorem Define.mem_reachedPaths {store : OverrideStore} {parent path : String} {d : Define} :
    path ∈ d.reachedPaths store parent ↔ ∃ node, d.Reaches store parent path node := by
  -- The nodes below are at a longer path, so the parent changes with the node.
  induction d using Define.induct generalizing parent with
  | node name order description values subkeys ih =>
    rw [reachedPaths, List.mem_cons, listReachedPaths_eq_flatMap,
      OverrideStore.contains_eq_isSome_get?]
    constructor
    · rintro (rfl | below)
      · exact ⟨_, .here parent (.node name order description values subkeys)⟩
      · split at below
        next => cases below
        next plain =>
          obtain ⟨d, isMember, inside⟩ := List.mem_flatMap.1 below
          obtain ⟨node, reaches⟩ := (ih d isMember).1 inside
          have notOverridden : store.get? (qualified parent name) = none := by simpa using plain
          exact ⟨node, .deeper notOverridden isMember reaches⟩
    · rintro ⟨node, reaches⟩
      cases reaches with
      | here => exact .inl rfl
      | deeper plain isMember reaches =>
        right
        have notOverridden : store.get? (qualified parent name) = none := plain
        rw [notOverridden]
        exact List.mem_flatMap.2 ⟨_, isMember, (ih _ isMember).2 ⟨node, reaches⟩⟩

instance (document : Document) (store : OverrideStore) (root : String) :
    DecidablePred (document.AsksFor store root) := fun name =>
  have (d : Define) : Decidable (∃ node, d.Reaches store root name node) :=
    decidable_of_iff (name ∈ d.reachedPaths store root) Define.mem_reachedPaths
  inferInstanceAs (Decidable (_ ∨ _))

end Schema

/-! ## Stores of entries -/

/-- The override holds what the entry declares. -/
def OverrideEntry.Makes (entry : OverrideEntry) (o : Override) : Prop :=
  Override.ofEntry entry = .ok o

namespace OverrideEntry.Makes

variable {entry : OverrideEntry} {o : Override}

theorem eq_of_makes (makes : entry.Makes o) :
    o.declaration = entry.declaration.withDoc none ∧ o.doc = entry.declaration.doc? := by
  rw [Makes, Override.ofEntry] at makes
  split at makes
  next => cases makes
  next =>
    split at makes
    next => cases makes
    next =>
      cases makes
      exact ⟨rfl, rfl⟩

theorem name_eq (makes : entry.Makes o) : o.name = entry.name := by
  rw [Override.name, makes.eq_of_makes.1, Declaration.name_withDoc, OverrideEntry.name]

theorem documented_eq (makes : entry.Makes o) : o.documented = entry.declaration := by
  obtain ⟨same, sameDoc⟩ := makes.eq_of_makes
  rw [Override.documented, same, sameDoc]
  cases entry.declaration <;> rfl

end OverrideEntry.Makes

namespace OverrideStore

variable {store store' : OverrideStore} {entries : List OverrideEntry}

/-- A store is determined by its list, since the positions are those of the names in it. -/
theorem eq_of_overrides (same : store'.overrides = store.overrides)
    (sameSource : store'.source = store.source) : store' = store := by
  have samePositions : store'.positions = store.positions :=
    store'.located.unique (same ▸ store.located)
  cases store
  cases store'
  cases same
  cases sameSource
  cases samePositions
  rfl

/-- All that a push does to a store that stays usable is to append. -/
theorem push_eq_ok {o : Override} :
    store.push o = .ok store' ↔
      store'.overrides = store.overrides ++ [o] ∧ store'.source = store.source := by
  refine ⟨appended_of_push, fun ⟨longer, sameSource⟩ => ?_⟩
  have distinct := store'.distinct
  rw [longer, List.map_append, List.nodup_append] at distinct
  have fresh : ¬ store.contains o.name := fun isThere =>
    distinct.2.2 _ (contains_iff.1 isThere) _ (by simp) rfl
  rw [push, dif_neg fresh]
  refine congrArg Except.ok (Eq.symm ?_)
  exact eq_of_overrides longer sameSource

/-- The step of the loop over entries. -/
theorem pushEntries_cons_eq_ok {entry : OverrideEntry} :
    store.pushEntries (entry :: entries) = .ok store' ↔
      ∃ o extended, entry.Makes o ∧ store.push o = .ok extended ∧
        extended.pushEntries entries = .ok store' := by
  simp only [pushEntries, bind, Except.bind, OverrideEntry.Makes]
  cases Override.ofEntry entry with
  | error e => simp
  | ok o =>
    cases pushed : store.push o with
    | error e => simp [pushed]
    | ok extended => simp [pushed]

/-- The loop over the entries appends an override for each of them. -/
theorem pushEntries_eq_ok :
    store.pushEntries entries = .ok store' ↔
      ∃ added, List.Forall₂ OverrideEntry.Makes entries added ∧
        store'.overrides = store.overrides ++ added ∧ store'.source = store.source := by
  -- The store grows along the entries.
  induction entries generalizing store with
  | nil =>
    simp only [pushEntries, List.forall₂_nil_left_iff, exists_eq_left, List.append_nil,
      Except.ok.injEq]
    constructor
    · rintro rfl
      exact ⟨rfl, rfl⟩
    · rintro ⟨same, sameSource⟩
      exact (eq_of_overrides same sameSource).symm
  | cons entry entries ih =>
    simp only [pushEntries_cons_eq_ok, push_eq_ok, ih]
    constructor
    · rintro ⟨o, extended, makes, ⟨same, sameSource⟩, added, all, same', sameSource'⟩
      refine ⟨o :: added, .cons makes all, ?_, sameSource'.trans sameSource⟩
      rw [same', same, List.append_assoc, List.singleton_append]
    · rintro ⟨_, all, same, sameSource⟩
      cases all with
      | @cons _ o _ added makes all =>
        have split : store'.overrides = (store.overrides ++ [o]) ++ added := by
          rw [same, List.append_assoc, List.singleton_append]
        have distinct := store'.distinct
        rw [split, List.map_append, List.nodup_append] at distinct
        exact ⟨o, .ofDistinct (store.overrides ++ [o]) distinct.1 store.source, makes, ⟨rfl, rfl⟩,
          added, all, split, sameSource⟩

/-- A store made of entries holds an override for each of them, in their order. -/
theorem ofEntries_eq_ok :
    ofEntries entries = .ok store ↔
      List.Forall₂ OverrideEntry.Makes entries store.overrides ∧ store.source = .inline := by
  rw [ofEntries, pushEntries_eq_ok]
  simp [empty]

end OverrideStore

/-! ## Overrides that are used -/

namespace Synth

variable {ctx : Context}

theorem mem_lookedUp {name entity : String} :
    name ∈ lookedUp ctx entity ↔ entity = name ∧ ctx.overrides.contains name := by
  rw [lookedUp]
  split
  next isThere =>
    rw [List.mem_singleton]
    constructor
    · rintro rfl
      exact ⟨rfl, isThere⟩
    · exact fun same => same.1.symm
  next absent =>
    simp only [List.not_mem_nil, false_iff, not_and]
    rintro rfl
    exact absent

/-- What a run looks up below a node is what it reaches and finds an override for. -/
theorem mem_overriddenNodes {parent path : String} {d : Define} :
    path ∈ overriddenNodes ctx parent d ↔
      path ∈ d.reachedPaths ctx.overrides parent ∧ ctx.overrides.contains path := by
  induction d using Schema.Define.induct generalizing parent with
  | node name order description values subkeys ih =>
    rw [overriddenNodes, Define.reachedPaths, List.mem_append, mem_lookedUp, List.mem_cons,
      overriddenNodesOf_eq_flatMap, Define.listReachedPaths_eq_flatMap, or_and_right, eq_comm]
    refine or_congr_right ?_
    split
    · simp
    · simp only [List.mem_flatMap]
      constructor
      · rintro ⟨d, isMember, inside⟩
        obtain ⟨reached, isThere⟩ := (ih d isMember).1 inside
        exact ⟨⟨d, isMember, reached⟩, isThere⟩
      · rintro ⟨⟨d, isMember, reached⟩, isThere⟩
        exact ⟨d, isMember, (ih d isMember).2 ⟨reached, isThere⟩⟩

/-- The names under which a run finds overrides, by category. -/
def usedBySegments (ctx : Context) : List String :=
  (ctx.document.builtinTypes.flatMap fun b => lookedUp ctx b.name)
    ++ overriddenNodesOf ctx ctx.config.constantsRoot ctx.document.defines
    ++ (ctx.document.events.flatMap fun event => lookedUp ctx (eventName event))
    ++ (ctx.document.classes.flatMap fun c => lookedUp ctx c.name)
    ++ (ctx.document.concepts.flatMap fun concept => lookedUp ctx concept.name)

theorem mem_usedBySegments {name : String} :
    name ∈ usedBySegments ctx ↔
      ctx.document.AsksFor ctx.overrides ctx.config.constantsRoot name ∧
        ctx.overrides.contains name := by
  simp only [usedBySegments, List.mem_append, List.mem_flatMap, mem_lookedUp,
    overriddenNodesOf_eq_flatMap, mem_overriddenNodes, ← Define.mem_reachedPaths, Document.AsksFor,
    eventName, ← and_assoc, exists_and_right, or_and_right, or_assoc]

/-- A run uses exactly the overrides that an entity asks for. -/
theorem mem_usedOverrides {made : Segments} {s s' : Session} (runs : Runs (segments ctx) s made s')
    {name : String} :
    name ∈ s'.usedOverrides ↔ name ∈ s.usedOverrides ∨
      ctx.document.AsksFor ctx.overrides ctx.config.constantsRoot name ∧
        ctx.overrides.contains name := by
  obtain ⟨t₁, t₂, t₃, t₄, t₅, builtins, constants, events, classes, concepts, globals, _⟩ :=
    runs_segments ctx runs
  rw [← mem_usedBySegments]
  rw [((globals_settles ctx).uses _ _ _ globals).1, ((concepts_settles ctx).uses _ _ _ concepts).1,
    ((classes_settles ctx).uses _ _ _ classes).1, ((events_settles ctx).uses _ _ _ events).1,
    ((constants_settles ctx).uses _ _ _ constants).1,
    ((builtins_settles ctx).uses _ _ _ builtins).1]
  simp [usedBySegments, or_assoc]

end Synth

/-! ## Overrides that are left over -/

variable {document : Document} {store : OverrideStore} {config : Config}
  {entries : List OverrideEntry}

/-- A run uses an override if and only if an entity asks for it. -/
theorem hasUsed_iff_asksFor (made : OverrideStore.ofEntries entries = .ok store)
    {segments : Segments} {session : Session}
    (runs : Synth.Runs (Synth.segments (.of document store config)) {} segments session)
    {entry : OverrideEntry} (isMember : entry ∈ entries) :
    session.hasUsed entry.name ↔ document.AsksFor store config.constantsRoot entry.name := by
  obtain ⟨o, isOverride, makes⟩ :=
    Synth.exists_of_forall₂ (OverrideStore.ofEntries_eq_ok.1 made).1 isMember
  have isThere : store.contains entry.name := by
    rw [← makes.name_eq]
    exact OverrideStore.contains_iff.2 (List.mem_map_of_mem isOverride)
  rw [Session.hasUsed, List.contains_iff_mem, Synth.mem_usedOverrides runs]
  simp [Context.of, isThere]

/-- After a run the unused overrides are those that no entity asks for, of any part of the entries.
-/
theorem unused_eq (made : OverrideStore.ofEntries entries = .ok store)
    {segments : Segments} {session : Session}
    (runs : Synth.Runs (Synth.segments (.of document store config)) {} segments session)
    {part : List OverrideEntry} {overrides : List Override}
    (all : List.Forall₂ OverrideEntry.Makes part overrides)
    (within : ∀ entry ∈ part, entry ∈ entries) :
    (overrides.filter fun o => !session.hasUsed o.name).map Override.documented =
      (part.filter fun entry =>
        ¬ document.AsksFor store config.constantsRoot entry.name).map (·.declaration) := by
  have related := (List.forall₂_and_left _ _).2 ⟨within, all⟩
  have sameLeft (entry : OverrideEntry) (o : Override)
      (here : entry ∈ entries ∧ entry.Makes o) :
      (¬ document.AsksFor store config.constantsRoot entry.name) ↔ !session.hasUsed o.name := by
    rw [here.2.name_eq, ← hasUsed_iff_asksFor made runs here.1]
    simp
  have left : List.Forall₂ (fun entry o => entry ∈ entries ∧ entry.Makes o)
      (part.filter fun entry => ¬ document.AsksFor store config.constantsRoot entry.name)
      (overrides.filter fun o => !session.hasUsed o.name) :=
    List.rel_filter (fun entry o here => by simpa using sameLeft entry o here) related
  exact (Synth.map_eq_of_forall₂ left fun entry o here => here.2.documented_eq.symm).symm

/-- The overrides that nothing asked for are left over as they were written. -/
theorem unmatchedOverrides_eq (made : OverrideStore.ofEntries entries = .ok store)
    {segments : Segments} {session : Session}
    (runs : Synth.Runs (Synth.segments (.of document store config)) {} segments session) :
    segments.unmatchedOverrides =
      (entries.filter fun entry =>
        ¬ document.AsksFor store config.constantsRoot entry.name).map (·.declaration) := by
  obtain ⟨_, _, _, _, _, _, _, _, _, _, _, unmatched⟩ := Synth.runs_segments _ runs
  rw [unmatched, unmatchedOverrides]
  exact unused_eq made runs (OverrideStore.ofEntries_eq_ok.1 made).1 fun _ isMember => isMember

/-- Each override is used by a run or left over, and never both. The ones left over stand at the end
    of the output, in the order of the entries and with their own documentation; they are those
    under whose name no entity looks. -/
theorem generate_accounts_for_overrides (made : OverrideStore.ofEntries entries = .ok store)
    {g : Generation} (success : generate document store config = .ok g) :
    ∃ segments session,
      Synth.Runs (Synth.segments (.of document store config)) {} segments session ∧
      g = .of document segments session ∧
      segments.unmatchedOverrides =
        (entries.filter fun entry =>
          ¬ document.AsksFor store config.constantsRoot entry.name).map (·.declaration) ∧
      ∀ entry ∈ entries,
        (session.hasUsed entry.name ↔ document.AsksFor store config.constantsRoot entry.name) ∧
        (entry.declaration ∈ segments.unmatchedOverrides ↔ ¬ session.hasUsed entry.name) := by
  obtain ⟨_, segments, session, runs, rfl⟩ := generate_eq_ok.1 success
  have leftOver := unmatchedOverrides_eq made runs
  refine ⟨segments, session, runs, rfl, leftOver, fun entry isMember => ?_⟩
  have used := hasUsed_iff_asksFor made runs isMember
  refine ⟨used, ?_⟩
  rw [used, leftOver, List.mem_map]
  constructor
  · rintro ⟨other, isLeft, same⟩
    -- Entries with the same declaration have the same name.
    have sameName : other.name = entry.name := congrArg Declaration.name same
    rw [← sameName]
    simpa using (List.mem_filter.1 isLeft).2
  · intro unasked
    exact ⟨entry, List.mem_filter.2 ⟨isMember, by simpa using unasked⟩, rfl⟩

def chestDocument : Document where
  application := "factorio"
  stage := "runtime"
  apiVersion := 3
  classes := [{ name := "LuaChest", order := 0 }]
  defines := [.node "chest" 0 "" [] [.node "slot" 0 "" [⟨"first", 0, ""⟩] []]]

/-- The override of the inner node is left over: the one of the outer node stands for both. -/
def chestEntries : List OverrideEntry :=
  [⟨.enumeration { name := "defines.chest.slot", doc := some "Slots." }, none⟩,
    ⟨.interface { name := "LuaChest" }, none⟩,
    ⟨.nameSpace "defines.chest" [] none, none⟩,
    ⟨.alias { name := "Count", ty := .keyword .number, doc := some "A count." }, none⟩]

theorem chestEntries_accounted :
    ∃ store g, OverrideStore.ofEntries chestEntries = .ok store ∧
      generate chestDocument store {} = .ok g ∧
      (chestEntries.filter fun entry => ¬ chestDocument.AsksFor store "defines" entry.name).map
        OverrideEntry.name = ["defines.chest.slot", "Count"] ∧
      ∃ segments session,
        Synth.Runs (Synth.segments (.of chestDocument store {})) {} segments session ∧
        g = .of chestDocument segments session ∧
        segments.unmatchedOverrides =
          (chestEntries.filter fun entry =>
            ¬ chestDocument.AsksFor store "defines" entry.name).map (·.declaration) ∧
        ∀ entry ∈ chestEntries,
          (session.hasUsed entry.name ↔ chestDocument.AsksFor store "defines" entry.name) ∧
          (entry.declaration ∈ segments.unmatchedOverrides ↔ ¬ session.hasUsed entry.name) := by
  obtain ⟨store, made, isOk, names⟩ : ∃ store, OverrideStore.ofEntries chestEntries = .ok store ∧
      (generate chestDocument store {}).isOk ∧
      (chestEntries.filter fun entry => ¬ chestDocument.AsksFor store "defines" entry.name).map
        OverrideEntry.name = ["defines.chest.slot", "Count"] :=
    ⟨⟨_, _, _, _⟩, rfl, by decide +kernel, by decide +kernel⟩
  obtain ⟨g, success⟩ := exists_generation_of_isOk isOk
  exact ⟨store, g, made, success, names, generate_accounts_for_overrides made success⟩

end Typings

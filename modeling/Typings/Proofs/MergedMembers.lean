import Typings.Proofs.Segments

/-! # Members of overrides

An override that is an interface is merged with its entity. Its members are in the interface of the
entity: those that the schema asks for by name in the place of synthesized ones, the others at the
end.

* `MergedEntity`: the entities that are merged with interfaces.
* `Synth.Visits`: runs as a sequence of steps for such entities, with other steps between them.
* `generate_keeps_members`: what becomes of the members of an override.
-/

namespace Typings

open Schema (Concept ConceptKind Document Event)

/-! ## Merged entities -/

/-- Whether a concept is merged with an interface. -/
def Schema.ConceptKind.isMerged : ConceptKind → Bool
  | .structure _ => true
  | .flag _ => true
  | .table shape => shape.groups.isEmpty
  | .filter shape => shape.groups.isEmpty
  | .prose => false
  | .union _ => false
  | .enumeration _ => false
  | .tableOrArray _ => false

theorem asked_of_not_isMerged {kind : ConceptKind} (notMerged : kind.isMerged = false) :
    kind.asked = [] := by
  cases kind with
  | «structure» attributes | flag options => cases notMerged
  | table shape | filter shape =>
    simp only [ConceptKind.isMerged] at notMerged
    simp [ConceptKind.asked, Schema.TableShape.asked, notMerged]
  | _ => rfl

/-- An entity that is merged with its override if that is an interface. -/
inductive MergedEntity where
  | event (event : Event)
  | ofClass (c : Schema.Class)
  | concept (concept : Concept)

namespace MergedEntity

def name : MergedEntity → String
  | event e => Synth.eventName e
  | ofClass c => c.name
  | concept k => k.name

def asked : MergedEntity → List AskedMember
  | event e => e.asked
  | ofClass c => c.asked
  | concept k => k.kind.asked

def declarations (ctx : Context) : MergedEntity → Synth (List Declaration)
  | event e => List.singleton <$> Synth.eventDeclaration ctx e
  | ofClass c => Synth.classDeclarations ctx c
  | concept k => Synth.conceptDeclarations ctx k

end MergedEntity

/-- The entities of a document that are merged with interfaces, in the order of a run. -/
def Schema.Document.mergedEntities (document : Document) : List MergedEntity :=
  (Schema.inOrder document.events).map .event
    ++ (Schema.inOrder document.classes).map .ofClass
    ++ ((Schema.inOrder document.concepts).filter (·.kind.isMerged)).map .concept

namespace Synth

variable {ctx : Context} {s s' : Session}

/-! ## Interfaces of entities -/

/-- The interface has an answer for each asked member, and then the members of the override that are
    unclaimed in the session. -/
def Holds (entity : String) (o : Option Override) (asked : List AskedMember) (session : Session)
    (iface : Interface) : Prop :=
  ∃ own, (∀ a ∈ asked, ∃ m ∈ own, Answers o a m) ∧
    iface.members = own ++ unclaimedMembers entity o session

/-- The block has an interface that holds the members of the override with which the entity is
    merged. -/
def Merged (ctx : Context) (entity : String) (asked : List AskedMember) (session : Session)
    (block : List Declaration) : Prop :=
  ∃ iface, .interface iface ∈ block ∧
    (iface.name = entity ∨ iface.name = entity ++ "Members") ∧
    Holds entity (ctx.overrides.structural? entity) asked session iface

theorem eventDeclaration_merged {event : Event} {decl : Declaration}
    (runs : Runs (eventDeclaration ctx event) s decl s') :
    Merged ctx (eventName event) event.asked s' [decl] := by
  obtain ⟨_, doc, own, t, t', rfl, _, made, rfl⟩ := runs_eventDeclaration runs
  have answers := (mergeParameters_merges ctx _ _ event.data).answers _ _ _ made
  exact ⟨_, List.mem_singleton_self _, .inl rfl, own,
    fun a isAsked => exists_of_forall₂ answers isAsked, rfl⟩

/-- A concept that is merged has the members of the override behind its own ones. -/
theorem structuralConcept_merged {name : String} {doc : Option String} {asked : List AskedMember}
    {members : Option Override → Synth (List Member)} {block : List Declaration} {o : Override}
    (answers : ∀ o t own t', Runs (members o) t own t' → List.Forall₂ (Answers o) asked own)
    (isMerged : ctx.overrides.structural? name = some o)
    (runs : Runs (structuralConcept ctx name doc members) s block s') :
    Merged ctx name asked s' block := by
  rcases runs_structuralConcept runs with ⟨o', isFound, isAlias, _⟩ | ⟨_, own, t, rfl, made, rfl⟩
  · obtain ⟨isFound', isStructural⟩ := OverrideStore.structural?_eq_some.1 isMerged
    cases isFound.symm.trans isFound'
    cases isAlias.symm.trans isStructural
  · exact ⟨_, List.mem_singleton_self _, .inl rfl, own,
      fun a isAsked => exists_of_forall₂ (answers _ _ _ _ made) isAsked, rfl⟩

/-- The members of a class that is merged are in the interface that extends others, split or not. -/
theorem classDeclarations_merged {c : Schema.Class} {block : List Declaration}
    (runs : Runs (classDeclarations ctx c) s block s') : Merged ctx c.name c.asked s' block := by
  obtain ⟨_, doc, decls, made, index, t, t', t'', rfl, _, schema, _, _, rfl⟩ :=
    runs_classDeclarations runs
  obtain ⟨calls, own, rfl, answers⟩ := schemaMembers_answers ctx schema
  have holds (name : String) (supertypes : List Ty) (doc : Option String) :
      Holds c.name (ctx.overrides.structural? c.name) c.asked s'
        ⟨name, supertypes,
          calls ++ own ++ unclaimedMembers c.name (ctx.overrides.structural? c.name) s', doc⟩ := by
    refine ⟨calls ++ own, fun a isAsked => ?_, rfl⟩
    obtain ⟨m, isMember, answer⟩ := exists_of_forall₂ answers isAsked
    exact ⟨m, List.mem_append_right calls isMember, answer⟩
  cases index with
  | some index => exact ⟨_, List.mem_append_right decls List.mem_cons_self, .inr rfl, holds _ _ _⟩
  | none => exact ⟨_, List.mem_append_right decls List.mem_cons_self, .inl rfl, holds _ _ _⟩

theorem tableConcept_merged {concept : Concept} {shape : Schema.TableShape} {doc : Option String}
    {block : List Declaration} {o : Override} (plain : shape.groups.isEmpty)
    (isMerged : ctx.overrides.structural? concept.name = some o)
    (runs : Runs (tableConcept ctx concept shape doc) s block s') :
    Merged ctx concept.name shape.asked s' block := by
  rw [tableConcept, if_pos plain] at runs
  rw [Schema.TableShape.asked, if_pos plain]
  exact structuralConcept_merged
    (fun o => (mergeParameters_merges ctx concept.name o shape.parameters).answers) isMerged runs

/-- A concept that is merged with an interface is one. -/
theorem conceptDeclarations_merged {concept : Concept} {block : List Declaration} {o : Override}
    (mergeable : concept.kind.isMerged) (isMerged : ctx.overrides.structural? concept.name = some o)
    (runs : Runs (conceptDeclarations ctx concept) s block s') :
    Merged ctx concept.name concept.kind.asked s' block := by
  obtain ⟨doc, t, _, runs⟩ := runs_bind.1 runs
  rw [documentedConcept] at runs
  cases isKind : concept.kind <;> simp only [isKind] at runs mergeable
  case «structure» attributes =>
    refine structuralConcept_merged (fun o t own t' made => ?_) isMerged runs
    have merges := MergesAll.each fun a (_ : a ∈ Schema.inOrder attributes) =>
      mergeAttribute_merges ctx concept.name o a
    simpa only [List.map_id, ConceptKind.asked] using merges.answers t own t' made
  case flag options =>
    refine structuralConcept_merged (fun o t own t' made => ?_) isMerged runs
    have merges := MergesAll.each fun option (_ : option ∈ Schema.inOrder options) =>
      flagMember_merges ctx concept.name o option
    simpa only [List.map_id, ConceptKind.asked] using merges.answers t own t' made
  case table shape => exact tableConcept_merged mergeable isMerged runs
  case filter shape => exact tableConcept_merged mergeable isMerged runs
  all_goals cases mergeable

/-! ## Entities along a run -/

/-- A part of a run from one session to another that takes the steps of the entities, makes the
    declarations, and between the steps claims no members. -/
inductive Visits (ctx : Context) :
    Session → List MergedEntity → List Declaration → Session → Prop
  | done (s : Session) : Visits ctx s [] [] s
  | other {s s' s'' : Session} {entities : List MergedEntity} {decls : List Declaration}
      (block : List Declaration) (same : SameMembers s s')
      (rest : Visits ctx s' entities decls s'') : Visits ctx s entities (block ++ decls) s''
  | visit {s s' s'' : Session} {entities : List MergedEntity} {decls block : List Declaration}
      (entity : MergedEntity) (runs : Runs (entity.declarations ctx) s block s')
      (rest : Visits ctx s' entities decls s'') :
      Visits ctx s (entity :: entities) (block ++ decls) s''

def claimedBy (ctx : Context) (entity : MergedEntity) : List (String × String) :=
  claimed ctx.overrides entity.name entity.asked

theorem declarations_uses (entity : MergedEntity) :
    Uses (entity.declarations ctx) (lookedUp ctx entity.name) (claimedBy ctx entity) := by
  cases entity with
  | event e => exact (eventDeclaration_settles ctx e).uses.map _
  | ofClass c => exact (classDeclarations_settles ctx c).uses
  | concept k => exact (conceptDeclarations_settles ctx k).uses

namespace Visits

variable {s'' : Session} {entities entities' : List MergedEntity}
  {decls decls' block : List Declaration}

theorem step (block : List Declaration) (same : SameMembers s s') : Visits ctx s [] block s' := by
  have visits : Visits ctx s [] (block ++ []) s' := other block same (.done s')
  rwa [List.append_nil] at visits

theorem append (first : Visits ctx s entities decls s')
    (second : Visits ctx s' entities' decls' s'') :
    Visits ctx s (entities ++ entities') (decls ++ decls') s'' := by
  induction first with
  | done => exact second
  | other block same _ ih =>
    rw [List.append_assoc]
    exact .other block same (ih second)
  | visit e runs _ ih =>
    rw [List.append_assoc]
    exact .visit e runs (ih second)

/-- At each entity the members that are used are those that the entities before it claimed. -/
theorem split {before after : List MergedEntity} {e : MergedEntity}
    (visits : Visits ctx s (before ++ e :: after) decls s'') :
    ∃ front block back t t', decls = front ++ block ++ back ∧
      Runs (e.declarations ctx) t block t' ∧
      ∀ use, use ∈ t.usedMembers ↔
        use ∈ s.usedMembers ∨ ∃ earlier ∈ before, use ∈ claimedBy ctx earlier := by
  generalize whole : before ++ e :: after = entities at visits
  -- The entities in front of `e` become fewer with each step for one of them.
  induction visits generalizing before with
  | done => simp at whole
  | other block same _ ih =>
    obtain ⟨front, inner, back, t, t', rfl, runs, used⟩ := ih whole
    refine ⟨block ++ front, inner, back, t, t', by simp only [List.append_assoc], runs,
      fun use => ?_⟩
    rw [used, same]
  | @visit _ _ _ _ _ block first runs _ ih =>
    cases before with
    | nil =>
      obtain ⟨rfl, rfl⟩ := List.cons.inj whole
      exact ⟨[], block, _, _, _, rfl, runs, by simp⟩
    | cons earlier before =>
      obtain ⟨rfl, others⟩ := List.cons.inj whole
      obtain ⟨front, inner, back, t, t', rfl, inside, used⟩ := ih others
      refine ⟨block ++ front, inner, back, t, t', by simp only [List.append_assoc], inside,
        fun use => ?_⟩
      rw [used, (declarations_uses earlier _ _ _ runs).2 use]
      simp [or_assoc]

end Visits

/-! ## Categories along a run -/

/-- Every event is merged in its turn. -/
theorem visits_events {segment : List Declaration} (runs : Runs (events ctx) s segment s') :
    Visits ctx s ((Schema.inOrder ctx.document.events).map .event) segment s' := by
  rw [events] at runs
  generalize Schema.inOrder ctx.document.events = es at runs ⊢
  induction es generalizing segment s with
  | nil =>
    obtain ⟨rfl, rfl⟩ := runs_pure.1 runs
    exact .done s
  | cons event es ih =>
    obtain ⟨decl, t, decls, here, behind, rfl⟩ := runs_each_cons.1 runs
    exact .visit (.event event) (runs_map.2 ⟨decl, here, rfl⟩) (ih behind)

theorem visits_concepts {blocks : List (List Declaration)} {ks : List Concept}
    (runs : Runs (each (conceptDeclarations ctx) ks) s blocks s') :
    Visits ctx s ((ks.filter (·.kind.isMerged)).map .concept) blocks.flatten s' := by
  induction ks generalizing blocks s with
  | nil =>
    obtain ⟨rfl, rfl⟩ := runs_pure.1 runs
    exact .done s
  | cons k ks ih =>
    obtain ⟨block, t, blocks, here, behind, rfl⟩ := runs_each_cons.1 runs
    cases isMerged : k.kind.isMerged with
    | true =>
      simp only [List.filter_cons, isMerged, if_true]
      exact .visit (.concept k) here (ih behind)
    | false =>
      simp only [List.filter_cons, isMerged, Bool.false_eq_true, if_false]
      -- A concept that is not merged asks for nothing, so it claims nothing.
      have uses := (conceptDeclarations_settles ctx k).uses
      rw [asked_of_not_isMerged isMerged] at uses
      exact .other block (uses.sameMembers here rfl) (ih behind)

/-- Every class is merged in its turn; the marker interface merges nothing. -/
theorem visits_classesFrom {marker marker' : Option (List Declaration)} {cs : List Schema.Class}
    {decls : List Declaration} (runs : Runs (classesFrom ctx marker cs) s (decls, marker') s') :
    Visits ctx s (cs.map .ofClass) decls s' := by
  induction cs generalizing marker decls s with
  | nil =>
    obtain ⟨same, rfl⟩ := runs_pure.1 runs
    cases same
    exact .done s
  | cons c cs ih =>
    obtain ⟨_, t, block, t', rest, made, here, behind, rfl⟩ := runs_classesFrom_cons ctx runs
    have same := (markerAt_renders ctx marker c).uses.sameMembers made rfl
    exact .other [] same (.visit (.ofClass c) here (ih behind))

theorem visits_classes {segment : List Declaration} (runs : Runs (classes ctx) s segment s') :
    Visits ctx s ((Schema.inOrder ctx.document.classes).map .ofClass) segment s' := by
  obtain ⟨⟨decls, marker⟩, t, made, runs⟩ := runs_bind.1 runs
  obtain ⟨rfl, rfl⟩ := runs_pure.1 runs
  have visits := (visits_classesFrom made).append (.step (marker.getD []) fun _ => Iff.rfl)
  rwa [List.append_nil] at visits

/-- A whole run takes the steps of the merged entities in their order. -/
theorem visits_segments {made : Segments} (runs : Runs (segments ctx) s made s') :
    Visits ctx s ctx.document.mergedEntities made.declarations s' := by
  obtain ⟨t₁, t₂, t₃, t₄, t₅, builtins, constants, events, classes, concepts, globals, _⟩ :=
    runs_segments ctx runs
  obtain ⟨blocks, t, blocksMade, concepts⟩ := runs_bind.1 concepts
  obtain ⟨flattened, rfl⟩ := runs_pure.1 concepts
  have front : Visits ctx s [] (made.builtins ++ made.defines) t₂ :=
    (Visits.step _ ((builtins_settles ctx).uses.sameMembers builtins (by simp))).append
      (.step _ ((constants_settles ctx).uses.sameMembers constants rfl))
  have back : Visits ctx t [] (made.globals ++ made.unmatchedOverrides) s' :=
    (Visits.step _ ((globals_settles ctx).uses.sameMembers globals (by simp))).append
      (.step _ fun _ => Iff.rfl)
  have visits := front.append ((visits_events events).append ((visits_classes classes).append
    ((visits_concepts blocksMade).append back)))
  rw [flattened] at visits
  simpa only [Segments.declarations, Schema.Document.mergedEntities, List.nil_append,
    List.append_nil, List.append_assoc] using visits

/-! ## Members that nothing asks for -/

/-- None of the entities with the name asks for the member. -/
def Unasked (entities : List MergedEntity) (name : String) (member : Member) : Prop :=
  ∀ e ∈ entities, e.name = name → ∀ a ∈ e.asked, member.name? ≠ some a.name

instance (entities : List MergedEntity) (name : String) : DecidablePred (Unasked entities name) :=
  fun member => inferInstanceAs
    (Decidable (∀ e ∈ entities, e.name = name → ∀ a ∈ e.asked, member.name? ≠ some a.name))

theorem mem_claimedBy {e : MergedEntity} {entity member : String} :
    (entity, member) ∈ claimedBy ctx e ↔
      e.name = entity ∧ (∃ a ∈ e.asked, a.name = member) ∧
        (memberOf? (ctx.overrides.structural? entity) member).isSome := by
  simp only [claimedBy, claimed, List.mem_flatMap, AskedMember.mem_claims, Prod.mk.injEq]
  constructor
  · rintro ⟨a, isAsked, ⟨rfl, rfl⟩, isThere⟩
    exact ⟨rfl, ⟨a, isAsked, rfl⟩, isThere⟩
  · rintro ⟨rfl, ⟨a, isAsked, rfl⟩, isThere⟩
    exact ⟨a, isAsked, ⟨rfl, rfl⟩, isThere⟩

/-- A member with a name is unclaimed when none of the entities that had their turn asks for it. -/
theorem unclaimedMembers_eq {entities : List MergedEntity} {name : String} {o : Override}
    (isMerged : ctx.overrides.structural? name = some o)
    (used : ∀ use, use ∈ s.usedMembers ↔ ∃ e ∈ entities, use ∈ claimedBy ctx e) :
    unclaimedMembers name (some o) s =
      o.members.filter fun member => decide (Unasked entities name member) := by
  refine List.filter_congr fun member isMember => ?_
  cases isNamed : member.name? with
  | none => simp [Unasked, isNamed]
  | some own =>
    have isThere : (memberOf? (ctx.overrides.structural? name) own).isSome := by
      rw [isMerged]
      exact List.find?_isSome.2 ⟨member, isMember, by simp [isNamed]⟩
    have isUsed : s.hasUsedMember name own ↔ ¬ Unasked entities name member := by
      rw [Session.hasUsedMember, List.contains_iff_mem, used]
      simp only [mem_claimedBy, isThere, and_true, Unasked, isNamed, ne_eq, Option.some_inj]
      constructor
      · rintro ⟨e, isEntity, sameName, a, isAsked, rfl⟩ unasked
        exact unasked e isEntity sameName a isAsked rfl
      · intro asked
        by_contra none
        exact asked fun e isEntity sameName a isAsked same =>
          none ⟨e, isEntity, sameName, a, isAsked, same.symm⟩
    show (!s.hasUsedMember name own) = decide (Unasked entities name member)
    rw [Bool.eq_iff_iff, Bool.not_eq_true', ← Bool.not_eq_true, isUsed, not_not,
      decide_eq_true_iff]

end Synth

/-! ## What becomes of the members -/

/-- The step of a merged entity makes an interface that holds the members of its override. -/
theorem MergedEntity.merged {ctx : Context} {e : MergedEntity} {s s' : Session}
    {block : List Declaration} {o : Override} (isEntity : e ∈ ctx.document.mergedEntities)
    (isMerged : ctx.overrides.structural? e.name = some o)
    (runs : Synth.Runs (e.declarations ctx) s block s') :
    Synth.Merged ctx e.name e.asked s' block := by
  cases e with
  | event event =>
    obtain ⟨decl, made, rfl⟩ := Synth.runs_map.1 runs
    exact Synth.eventDeclaration_merged made
  | ofClass c => exact Synth.classDeclarations_merged runs
  | concept k =>
    have mergeable : k ∈ ctx.document.concepts ∧ k.kind.isMerged := by
      simpa [Document.mergedEntities] using isEntity
    exact Synth.conceptDeclarations_merged mergeable.2 isMerged runs

/-- The interface of a merged entity has, unchanged and in order, each member of the override that
    neither this entity nor an earlier one of the same name asks for. For each name that the entity
    asks for it has the first member of the name, which is only documented if it was not. -/
theorem generate_keeps_members {document : Document} {store : OverrideStore} {config : Config}
    {g : Generation} (success : generate document store config = .ok g)
    {before after : List MergedEntity} {e : MergedEntity}
    (isEntity : document.mergedEntities = before ++ e :: after) {o : Override}
    (isFound : store.get? e.name = some o) (isInterface : o.kind = .structural) :
    ∃ front block back iface own, g.declarations = front ++ block ++ back ∧
      (∃ s s', Synth.Runs (e.declarations (.of document store config)) s block s') ∧
      Declaration.interface iface ∈ block ∧
      (iface.name = e.name ∨ iface.name = e.name ++ "Members") ∧
      iface.members =
        own ++ o.members.filter (fun m => decide (Synth.Unasked (before ++ [e]) e.name m)) ∧
      ∀ a ∈ e.asked, ∀ found, o.member? a.name = some found →
        ∃ m ∈ own, Synth.DocumentedAs found m := by
  obtain ⟨_, made, session, runs, rfl⟩ := generate_eq_ok.1 success
  -- The step for the entity, and the members that are used when it has its turn.
  have visits := Synth.visits_segments runs
  rw [show (Context.of document store config).document.mergedEntities = _ from isEntity] at visits
  obtain ⟨front, block, back, t, t', whole, runs, used⟩ := visits.split
  have isMerged : store.structural? e.name = some o :=
    OverrideStore.structural?_eq_some.2 ⟨isFound, isInterface⟩
  have isThere : e ∈ document.mergedEntities := by
    rw [isEntity]
    exact List.mem_append_right before List.mem_cons_self
  obtain ⟨iface, isMember, named, own, answers, holds⟩ := MergedEntity.merged isThere isMerged runs
  -- The unclaimed members are taken when the entity itself has claimed what it asks for.
  have usedByAll : ∀ use, use ∈ t'.usedMembers ↔
      ∃ earlier ∈ before ++ [e], use ∈ Synth.claimedBy (.of document store config) earlier := by
    intro use
    rw [(Synth.declarations_uses e t block t' runs).2 use, used]
    simp [or_and_right, exists_or]
  have override : (Context.of document store config).overrides.structural? e.name = some o :=
    isMerged
  rw [override] at answers holds
  rw [Synth.unclaimedMembers_eq isMerged usedByAll] at holds
  refine ⟨front, block, back, iface, own, whole, ⟨t, t', runs⟩, isMember, named, holds, ?_⟩
  intro a isAsked found isFirst
  obtain ⟨m, isOwn, answer⟩ := answers a isAsked
  cases answer with
  | claimed isFirst' _ same =>
    cases isFirst.symm.trans isFirst'
    exact ⟨m, isOwn, same⟩
  | synthesized absent _ _ => cases isFirst.symm.trans absent

/-- A class whose override has two methods of the name that the class asks for, and two events whose
    interfaces have the same name. -/
def overloadDocument : Document where
  application := "factorio"
  stage := "runtime"
  apiVersion := 3
  classes := [{ name := "LuaThing", order := 0, methods := [{ name := "get", order := 0 }] }]
  events :=
    [{ name := "on_tick", order := 0, data := [.required "tick" 0 (.named "uint")] },
      { name := "on-tick", order := 1 }]

def overloads : Override where
  kind := .structural
  declaration :=
    .interface
      { name := "LuaThing"
        members :=
          [.method "get" [] none none,
            .method "get" [⟨"index", .keyword .number, false, false⟩] none none,
            .property "extra" .any false false none] }
  doc := none
  indexShape := none

def tickOverride : Override where
  kind := .structural
  declaration :=
    .interface
      { name := "OnTickEvent", members := [.property "tick" (.keyword .number) false false none] }
  doc := none
  indexShape := none

def overloadStore : OverrideStore :=
  .ofDistinct [overloads, tickOverride] (by decide) .inline

theorem overloads_kept :
    ∃ g front block back iface own, generate overloadDocument overloadStore {} = .ok g ∧
      g.declarations = front ++ block ++ back ∧
      Declaration.interface iface ∈ block ∧
      (iface.name = "LuaThing" ∨ iface.name = "LuaThing" ++ "Members") ∧
      iface.members = own ++ [.property "extra" .any false false none] ∧
      ∃ m ∈ own, Synth.DocumentedAs (.method "get" [] none none) m := by
  obtain ⟨g, success⟩ := exists_generation_of_isOk
    (show (generate overloadDocument overloadStore {}).isOk by decide +kernel)
  obtain ⟨front, block, back, iface, own, whole, _, isMember, named, members, kept⟩ :=
    generate_keeps_members success
      (show overloadDocument.mergedEntities =
        overloadDocument.mergedEntities.take 2 ++ .ofClass _ :: [] from rfl)
      (show overloadStore.get? "LuaThing" = some overloads from rfl) rfl
  refine ⟨g, front, block, back, iface, own, success, whole, isMember, named, members, ?_⟩
  exact kept ⟨"get", .method⟩ List.mem_cons_self _ rfl

/-- The second method of the class is not in the output, and the second of the interfaces for the
    events is empty. -/
theorem overload_lost :
    (generate overloadDocument overloadStore {}).toOption.map
        (·.declarations.map fun decl => (decl.name, decl.members.length)) =
      some [("OnTickEvent", 1), ("OnTickEvent", 0), ("LuaThing", 2)] ∧
    (overloadStore.get? "LuaThing").map (·.members.length) = some 3 ∧
    (overloadStore.get? "OnTickEvent").map (·.members.length) = some 1 := by
  decide +kernel

end Typings

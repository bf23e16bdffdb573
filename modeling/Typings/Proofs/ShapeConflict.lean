import Typings.Proofs.Segments

/-! # Members of another shape

A member of an override that a class asks for in another shape ends the run, unless the run ends
before.

* `Schema.Class.Requires`: the members that a class asks for, with their shapes.
* `Synth.stepsBefore`: the part of a run in front of a class.
* `generate_rejects_conflict`: the error of a run with such a member.
-/

namespace Typings

open Schema (Document)

/-- The class has a method or an attribute of the name, which it does not leave to the marker
    interface, and the member for it has the shape. -/
def Schema.Class.Requires (c : Schema.Class) (name : String) (shape : MemberShape) : Prop :=
  c.keeps name ∧
    ((∃ method ∈ c.methods, method.name = name ∧ shape = .method) ∨
      ∃ attr ∈ c.attributes, attr.name = name ∧
        shape = if attr.isWriteOnly then .setter else .property)

theorem Schema.Class.Requires.asked {c : Schema.Class} {name : String} {shape : MemberShape}
    (requires : c.Requires name shape) : ⟨name, shape⟩ ∈ c.asked := by
  rw [Schema.Class.asked, List.mem_append, List.mem_append]
  obtain ⟨keeps, ⟨method, isMember, rfl, rfl⟩ | ⟨attr, isMember, rfl, rfl⟩⟩ := requires
  · refine .inl (.inl (List.mem_map.2 ⟨method, ?_, rfl⟩))
    exact List.mem_filter.2 ⟨Schema.mem_inOrder.2 isMember, keeps⟩
  · refine .inl (.inr (List.mem_map.2 ⟨attr, ?_, rfl⟩))
    exact List.mem_filter.2 ⟨Schema.mem_inOrder.2 isMember, keeps⟩

namespace Synth

variable {ctx : Context} {s s' : Session} {e : SynthesisError}

/-! ## Failure of a class -/

/-- The members of a class fail only on a link or on a member of another shape. -/
theorem schemaMembers_fails (c : Schema.Class) (o : Option Override) (arrayLike : Bool) :
    FailsOnly (schemaMembers ctx c o c.hasTriad arrayLike)
      fun e => IsUnknownOperator e ∨ ∃ a ∈ c.asked, IsMismatch c.name o a e := by
  have within {asked : List AskedMember} (among : ∀ a ∈ asked, a ∈ c.asked) (e : SynthesisError)
      (isError : IsUnknownOperator e ∨ ∃ a ∈ asked, IsMismatch c.name o a e) :
      IsUnknownOperator e ∨ ∃ a ∈ c.asked, IsMismatch c.name o a e := by
    refine isError.imp_right ?_
    rintro ⟨a, isAsked, mismatch⟩
    exact ⟨a, among a isAsked, mismatch⟩
  refine ((callMembers_renders ctx c).fails.mono fun _ => .inl).bind fun _ =>
    ((mergeMethods_merges ctx c o).fails.mono (within ?_)).bind fun _ =>
      ((mergeAttributes_merges ctx c o).fails.mono (within ?_)).bind fun _ =>
        ((mergeLengths_merges ctx c o arrayLike).fails.mono (within ?_)).bind fun _ => .pure _
  all_goals
    intro a isAsked
    simp only [Schema.Class.asked, List.mem_append]
    tauto

section Conflict

variable {c : Schema.Class} {o : Override} {a : AskedMember} {found : Member}
  (isAsked : a ∈ c.asked) (isFirst : o.member? a.name = some found)
  (conflict : found.shape ≠ a.shape)

include isAsked isFirst conflict

theorem not_runs_schemaMembers {arrayLike : Bool} {made : List Declaration × List Member} :
    ¬ Runs (schemaMembers ctx c (some o) c.hasTriad arrayLike) s made s' := by
  intro runs
  obtain ⟨_, own, _, answers⟩ := schemaMembers_answers ctx runs
  obtain ⟨m, _, answer⟩ := exists_of_forall₂ answers isAsked
  cases answer with
  | claimed isFirst' fits _ =>
    cases isFirst.symm.trans isFirst'
    exact conflict fits
  | synthesized absent _ _ => cases isFirst.symm.trans absent

variable (isFound : ctx.overrides.get? c.name = some o) (isInterface : o.kind = .structural)

include isFound isInterface

theorem not_runs_classDeclarations {block : List Declaration} :
    ¬ Runs (classDeclarations ctx c) s block s' := by
  intro runs
  obtain ⟨_, doc, decls, own, index, t, t', t'', rfl, _, schema, _⟩ := runs_classDeclarations runs
  rw [OverrideStore.structural?_eq_some.2 ⟨isFound, isInterface⟩] at schema
  exact not_runs_schemaMembers isAsked isFirst conflict schema

/-- A class whose override has a member of another shape fails on a link or on such a member. -/
theorem classDeclarations_fails :
    FailsOnly (classDeclarations ctx c)
      fun e => IsUnknownOperator e ∨ ∃ a ∈ c.asked, IsMismatch c.name (some o) a e := by
  have isAllowed : o.kind ∈ [OverrideKind.structural] := List.mem_singleton.2 isInterface
  rw [classDeclarations, findOverride_allowed isFound isAllowed]
  simp only [bind_assoc, pure_bind]
  refine (FailsOnly.use c.name).bind fun _ => ?_
  refine ((describeEntity_fromSchema ctx _ _ _ _).fails.mono fun _ => .inl).bind fun _ => ?_
  -- The members of the class are never made, so nothing behind them can fail.
  refine (schemaMembers_fails c (some o) _).bind_of_runs fun _ made _ runs => ?_
  exact (not_runs_schemaMembers isAsked isFirst conflict runs).elim

end Conflict

/-! ## Failure of a run -/

/-- The part of a run in front of a class: the categories before the classes, and the classes before
    it. -/
def stepsBefore (ctx : Context) (before : List Schema.Class) :
    Synth (Option (List Declaration)) := do
  let _ ← builtins ctx
  let _ ← constants ctx
  let _ ← events ctx
  let made ← classesFrom ctx none before
  return made.2

theorem fails_classesFrom_cons {marker : Option (List Declaration)} {c : Schema.Class}
    {cs : List Schema.Class} :
    Fails (classesFrom ctx marker (c :: cs)) s e ↔
      Fails (markerAt ctx marker c) s e ∨
        ∃ marker' t, Runs (markerAt ctx marker c) s marker' t ∧
          (Fails (classDeclarations ctx c) t e ∨
            ∃ block t', Runs (classDeclarations ctx c) t block t' ∧
              Fails (classesFrom ctx marker' cs) t' e) := by
  simp only [classesFrom_cons, fails_bind, not_fails_pure, and_false, exists_false, or_false]

/-- If a run of the classes fails, it fails in front or behind, with some marker interface. -/
theorem fails_classesFrom_append {marker : Option (List Declaration)}
    {before after : List Schema.Class}
    (fails : Fails (classesFrom ctx marker (before ++ after)) s e) :
    Fails (classesFrom ctx marker before) s e ∨
      ∃ marker' t, Fails (classesFrom ctx marker' after) t e := by
  induction before generalizing marker s with
  | nil => exact .inr ⟨marker, s, fails⟩
  | cons b before ih =>
    rw [fails_classesFrom_cons]
    rcases fails_classesFrom_cons.1 fails with
      fails | ⟨marker', t, made, fails | ⟨block, t', runs, fails⟩⟩
    · exact .inl (.inl fails)
    · exact .inl (.inr ⟨marker', t, made, .inl fails⟩)
    · rcases ih fails with fails | behind
      · exact .inl (.inr ⟨marker', t, made, .inr ⟨block, t', runs, fails⟩⟩)
      · exact .inr behind

theorem not_runs_classes {c : Schema.Class} {segment : List Declaration}
    (isClass : c ∈ ctx.document.classes)
    (notRuns : ∀ t block t', ¬ Runs (classDeclarations ctx c) t block t') :
    ¬ Runs (classes ctx) s segment s' := by
  intro runs
  obtain ⟨⟨decls, marker⟩, t, runs, _⟩ := runs_bind.1 runs
  obtain ⟨blocks, each, _⟩ := Runs.classes ctx runs
  obtain ⟨block, _, t, t', runs⟩ := exists_of_forall₂ each (Schema.mem_inOrder.2 isClass)
  exact notRuns t block t' runs

/-- A class that cannot run ends the loop, there or before. -/
theorem fails_classesFrom {marker : Option (List Declaration)} {before after : List Schema.Class}
    {c : Schema.Class} (notRuns : ∀ t block t', ¬ Runs (classDeclarations ctx c) t block t')
    (fails : Fails (classesFrom ctx marker (before ++ c :: after)) s e) :
    Fails (classesFrom ctx marker before) s e ∨ IsUnknownOperator e ∨
      ∃ t, Fails (classDeclarations ctx c) t e := by
  rcases fails_classesFrom_append fails with fails | ⟨marker', t, fails⟩
  · exact .inl fails
  · rcases fails_classesFrom_cons.1 fails with fails | ⟨_, t', _, fails | ⟨block, t'', runs, _⟩⟩
    · exact .inr (.inl ((markerAt_renders ctx marker' c).fails t e fails))
    · exact .inr (.inr ⟨t', fails⟩)
    · exact (notRuns t' block t'' runs).elim

/-- A run with a class that cannot have its turn fails in front of the class or at it. -/
theorem fails_segments {before after : List Schema.Class} {c : Schema.Class}
    (order : Schema.inOrder ctx.document.classes = before ++ c :: after)
    (notRuns : ∀ t block t', ¬ Runs (classDeclarations ctx c) t block t')
    (fails : Fails (segments ctx) s e) :
    Fails (stepsBefore ctx before) s e ∨ IsUnknownOperator e ∨
      ∃ t, Fails (classDeclarations ctx c) t e := by
  have isClass : c ∈ ctx.document.classes := by
    rw [← Schema.mem_inOrder, order]
    exact List.mem_append_right before List.mem_cons_self
  simp only [stepsBefore, fails_bind, not_fails_pure, and_false, exists_false, or_false]
  -- The categories one by one, up to the one with the class.
  rcases fails_bind.1 fails with fails | ⟨_, t₁, builtins, fails⟩
  · exact .inl (.inl fails)
  rcases fails_bind.1 fails with fails | ⟨_, t₂, constants, fails⟩
  · exact .inl (.inr ⟨_, t₁, builtins, .inl fails⟩)
  rcases fails_bind.1 fails with fails | ⟨_, t₃, events, fails⟩
  · exact .inl (.inr ⟨_, t₁, builtins, .inr ⟨_, t₂, constants, .inl fails⟩⟩)
  rcases fails_bind.1 fails with fails | ⟨_, _, classes, _⟩
  · rcases fails_bind.1 fails with fails | ⟨_, _, _, fails⟩
    · rw [order] at fails
      rcases fails_classesFrom notRuns fails with fails | atClass
      · exact .inl (.inr ⟨_, t₁, builtins, .inr ⟨_, t₂, constants, .inr ⟨_, t₃, events, fails⟩⟩⟩)
      · exact .inr atClass
    · exact (not_fails_pure fails).elim
  · exact (not_runs_classes isClass notRuns classes).elim

theorem not_runs_segments {c : Schema.Class} {made : Segments} (isClass : c ∈ ctx.document.classes)
    (notRuns : ∀ t block t', ¬ Runs (classDeclarations ctx c) t block t') :
    ¬ Runs (segments ctx) s made s' := by
  intro runs
  obtain ⟨_, _, _, _, _, _, _, _, classes, _⟩ := runs_segments ctx runs
  exact not_runs_classes isClass notRuns classes

end Synth

/-! ## Conflicts -/

/-- A member of another shape than the class requires ends the run: with an error that names a
    member of another shape of the same class, with a link to an operator that does not exist, or
    with what ends the run in front of the class. -/
theorem generate_rejects_conflict {document : Document} {store : OverrideStore} {config : Config}
    {before after : List Schema.Class} {c : Schema.Class} {o : Override} {name : String}
    {shape : MemberShape} {found : Member}
    (order : Schema.inOrder document.classes = before ++ c :: after)
    (isFound : store.get? c.name = some o) (isInterface : o.kind = .structural)
    (requires : c.Requires name shape) (isFirst : o.member? name = some found)
    (conflict : found.shape ≠ shape) :
    ∃ e, generate document store config = .error e ∧
      ((∃ a ∈ c.asked, Synth.IsMismatch c.name (some o) a e) ∨ Synth.IsUnknownOperator e ∨
        (∃ invalid, document.error? = some invalid ∧ e = .invalidSchema invalid) ∨
        Synth.Fails (Synth.stepsBefore (.of document store config) before) {} e) := by
  have isClass : c ∈ document.classes := by
    rw [← Schema.mem_inOrder, order]
    exact List.mem_append_right before List.mem_cons_self
  have isAsked : ⟨name, shape⟩ ∈ c.asked := requires.asked
  have notRuns : ∀ t block t',
      ¬ Synth.Runs (Synth.classDeclarations (.of document store config) c) t block t' :=
    fun _ _ _ => Synth.not_runs_classDeclarations isAsked isFirst conflict isFound isInterface
  cases outcome : generate document store config with
  | ok g =>
    obtain ⟨_, made, session, runs, _⟩ := generate_eq_ok.1 outcome
    exact (Synth.not_runs_segments isClass notRuns runs).elim
  | error e =>
    refine ⟨e, rfl, ?_⟩
    rcases generate_eq_error.1 outcome with invalid | ⟨_, fails⟩
    · exact .inr (.inr (.inl invalid))
    · rcases Synth.fails_segments order notRuns fails with earlier | unknown | ⟨t, atClass⟩
      · exact .inr (.inr (.inr earlier))
      · exact .inr (.inl unknown)
      · have isError :=
          Synth.classDeclarations_fails isAsked isFirst conflict isFound isInterface t e atClass
        rcases isError with unknown | mismatch
        · exact .inr (.inl unknown)
        · exact .inl mismatch

/-- A class with a method, and with all members of the marker interface. -/
def thingClass : Schema.Class where
  name := "LuaThing"
  order := 0
  methods := [{ name := "help", order := 0 }, { name := "get", order := 1 }]
  attributes :=
    [.readOnly "valid" 0 (.named "boolean"), .readOnly "object_name" 1 (.named "string")]

def thingDocument : Document where
  application := "factorio"
  stage := "runtime"
  apiVersion := 3
  classes := [thingClass]

def thingOverride (members : List Member) : Override where
  kind := .structural
  declaration := .interface { name := "LuaThing", members := members }
  doc := none
  indexShape := none

def thingStore (members : List Member) : OverrideStore :=
  .ofDistinct [thingOverride members] (by simp) .inline

def conflictingMembers : List Member :=
  [.property "get" .any false false none]

theorem conflict_rejected :
    ∃ e, generate thingDocument (thingStore conflictingMembers) {} = .error e ∧
      ((∃ a ∈ thingClass.asked,
          Synth.IsMismatch "LuaThing" (some (thingOverride conflictingMembers)) a e) ∨
        Synth.IsUnknownOperator e ∨
        (∃ invalid, thingDocument.error? = some invalid ∧ e = .invalidSchema invalid) ∨
        Synth.Fails
          (Synth.stepsBefore (.of thingDocument (thingStore conflictingMembers) {}) []) {} e) := by
  have requires : thingClass.Requires "get" .method :=
    ⟨by decide +kernel, .inl ⟨{ name := "get", order := 1 }, by simp [thingClass], rfl, rfl⟩⟩
  have order : Schema.inOrder thingDocument.classes = [] ++ thingClass :: [] := rfl
  exact generate_rejects_conflict order rfl rfl requires rfl (by decide)

/-- Members that are let through: the class leaves its method `help` to the marker interface, and
    only the first of the members `get` is asked for. -/
def uncheckedMembers : List Member :=
  [.property "help" .any false false none, .method "get" [] none none,
    .property "get" .any false false none]

theorem conflict_let_through :
    (generate thingDocument (thingStore uncheckedMembers) {}).isOk ∧
      (thingStore uncheckedMembers).get? thingClass.name = some (thingOverride uncheckedMembers) ∧
      (thingOverride uncheckedMembers).kind = .structural ∧
      ∀ method ∈ thingClass.methods, ∃ m ∈ (thingOverride uncheckedMembers).members,
        m.name? = some method.name ∧ m.shape = .property :=
  ⟨by decide +kernel, rfl, rfl, by decide⟩

end Typings

import Typings.Generation
import Typings.Proofs.ConstantTree

/-! # Runs over documents

A run makes the declarations of one category after the other.

* `Synth.segments_succeeds`: a run succeeds when the overrides of all entities fit.
* `Synth.runs_segments`: the steps of a run, one for each category.
* `generate_eq_ok`, `generate_eq_error`: the outcomes of a run on a document, whether it is usable
  or not.
-/

namespace Typings

open Schema (Document)

namespace Synth

variable (ctx : Context)

/-! ## Categories -/

theorem flatten_settles {α : Type} {step : Synth (List (List α))} {p : Prop}
    {overrides : List String} {members : List (String × String)} {remarks : List String}
    (settles : Settles step p overrides members remarks) :
    Settles (do return (← step).flatten) p overrides members remarks :=
  settles.before fun _ => .pure _

theorem builtins_settles :
    Settles (builtins ctx)
      (∀ b ∈ ctx.document.builtinTypes, ctx.overrides.Allows b.name [.structural, .alias])
      (ctx.document.builtinTypes.flatMap fun b => lookedUp ctx b.name)
      (ctx.document.builtinTypes.flatMap fun _ => [])
      (ctx.document.builtinTypes.flatMap fun b => [b.description]) :=
  flatten_settles (.eachInOrder fun b _ => builtinDeclarations_settles ctx b)

theorem events_settles :
    Settles (events ctx)
      (∀ event ∈ ctx.document.events,
        Accepts ctx.overrides (eventName event) [.structural] event.asked)
      (ctx.document.events.flatMap fun event => lookedUp ctx (eventName event))
      (ctx.document.events.flatMap fun event =>
        claimed ctx.overrides (eventName event) event.asked)
      (ctx.document.events.flatMap Schema.Event.remarks) :=
  .eachInOrder fun event _ => eventDeclaration_settles ctx event

/-- The classes settle together, whatever becomes of the marker interface. -/
theorem classes_settles :
    Settles (classes ctx)
      (∀ c ∈ ctx.document.classes, Accepts ctx.overrides c.name [.structural] c.asked ∧
        IndexFits (ctx.overrides.structural? c.name))
      (ctx.document.classes.flatMap fun c => lookedUp ctx c.name)
      (ctx.document.classes.flatMap fun c => claimed ctx.overrides c.name c.asked)
      (ctx.document.classes.flatMap Schema.Class.remarks) := by
  have settles := (classesFrom_settles ctx none (Schema.inOrder ctx.document.classes)).before
    fun made => .pure (made.1 ++ made.2.getD [])
  refine ⟨fun known => (settles.succeeds ?_).congr (by simp), settles.uses.congr ?_ ?_⟩
  · simpa using known
  · simp
  · simp

theorem concepts_settles :
    Settles (concepts ctx)
      (∀ concept ∈ ctx.document.concepts,
        Accepts ctx.overrides concept.name concept.kind.allowed concept.kind.asked)
      (ctx.document.concepts.flatMap fun concept => lookedUp ctx concept.name)
      (ctx.document.concepts.flatMap fun concept =>
        claimed ctx.overrides concept.name concept.kind.asked)
      (ctx.document.concepts.flatMap Schema.Concept.remarks) :=
  flatten_settles (.eachInOrder fun concept _ => conceptDeclarations_settles ctx concept)

theorem globals_settles :
    Settles (globals ctx) (∀ object ∈ ctx.document.globalObjects, True)
      (ctx.document.globalObjects.flatMap fun _ => [])
      (ctx.document.globalObjects.flatMap fun _ => [])
      (ctx.document.globalObjects.flatMap fun object =>
        object.description :: object.type.remarks) :=
  .eachInOrder fun object _ => globalDeclaration_settles ctx object

/-! ## All categories -/

/-- The overrides of all entities fit. -/
def AllFit : Prop :=
  (∀ b ∈ ctx.document.builtinTypes, ctx.overrides.Allows b.name [.structural, .alias]) ∧
  (∀ d ∈ ctx.document.defines, ∀ path node,
    d.Reaches ctx.overrides ctx.config.constantsRoot path node →
      NodeFits ctx.overrides path node) ∧
  (∀ event ∈ ctx.document.events,
    Accepts ctx.overrides (eventName event) [.structural] event.asked) ∧
  (∀ c ∈ ctx.document.classes, Accepts ctx.overrides c.name [.structural] c.asked ∧
    IndexFits (ctx.overrides.structural? c.name)) ∧
  (∀ concept ∈ ctx.document.concepts,
    Accepts ctx.overrides concept.name concept.kind.allowed concept.kind.asked)

/-- A run succeeds if and only if the overrides of all entities fit. -/
theorem segments_succeeds (known : AllKnown ctx.document.remarks) :
    SucceedsIff (segments ctx) (AllFit ctx) := by
  simp only [Document.remarks, allKnown_append] at known
  obtain ⟨⟨⟨⟨⟨builtins, classes⟩, concepts⟩, events⟩, defines⟩, globals⟩ := known
  -- One condition for each category; the globals and the end of a run have none.
  have succeeds :=
    ((builtins_settles ctx).succeeds (by simpa using builtins)).bind fun b =>
      ((constants_settles ctx).succeeds defines).bind fun d =>
        ((events_settles ctx).succeeds events).bind fun e =>
          ((classes_settles ctx).succeeds classes).bind fun c =>
            ((concepts_settles ctx).succeeds concepts).bind fun k =>
              ((globals_settles ctx).succeeds globals).bind fun g =>
                SucceedsIff.get.bind fun session =>
                  .pure (Segments.mk b d e c k g (unmatchedOverrides ctx session))
  exact succeeds.congr (by simp [AllFit])

/-- A run goes through the categories in turn. What is left over comes from the session at its end.
-/
theorem runs_segments {made : Segments} {s s' : Session} (runs : Runs (segments ctx) s made s') :
    ∃ t₁ t₂ t₃ t₄ t₅, Runs (builtins ctx) s made.builtins t₁ ∧
      Runs (constants ctx) t₁ made.defines t₂ ∧ Runs (events ctx) t₂ made.events t₃ ∧
      Runs (classes ctx) t₃ made.classes t₄ ∧ Runs (concepts ctx) t₄ made.concepts t₅ ∧
      Runs (globals ctx) t₅ made.globals s' ∧
      made.unmatchedOverrides = unmatchedOverrides ctx s' := by
  obtain ⟨builtins, t₁, first, runs⟩ := runs_bind.1 runs
  obtain ⟨defines, t₂, second, runs⟩ := runs_bind.1 runs
  obtain ⟨events, t₃, third, runs⟩ := runs_bind.1 runs
  obtain ⟨classes, t₄, fourth, runs⟩ := runs_bind.1 runs
  obtain ⟨concepts, t₅, fifth, runs⟩ := runs_bind.1 runs
  obtain ⟨globals, t₆, sixth, runs⟩ := runs_bind.1 runs
  obtain ⟨t₇, t₈, last, runs⟩ := runs_bind.1 runs
  obtain ⟨rfl, rfl⟩ := runs_get.1 last
  obtain ⟨rfl, rfl⟩ := runs_pure.1 runs
  exact ⟨t₁, t₂, t₃, t₄, t₅, first, second, third, fourth, fifth, sixth, rfl⟩

end Synth

/-! ## Outcomes of runs -/

section Outcomes

open Synth

variable {document : Document} {store : OverrideStore} {config : Config}

/-- What a run makes of the declarations of each category. -/
def Generation.of (document : Document) (made : Segments) (session : Session) : Generation :=
  ⟨made.declarations, printDeclarations made.declarations,
    .of document.applicationVersion made.counts session.advisories
      (printDeclarations made.declarations)⟩

/-- The outcome is that of the categories in turn. -/
theorem synthesize_eq :
    synthesize document store config =
      match outcome (segments (.of document store config)) {} with
      | (.ok made, session) => .ok (.of document made session)
      | (.error e, _) => .error e := by
  have everything : outcome (everything (.of document store config)) {} = _ :=
    outcome_bind _ _ _
  rw [synthesize, ← outcome, everything]
  rcases outcome (segments (.of document store config)) {} with ⟨result, session⟩
  cases result <;> rfl

/-- A run on a usable document makes what its steps make. -/
theorem generate_eq_ok {g : Generation} :
    generate document store config = .ok g ↔
      document.error? = none ∧ ∃ made session,
        Runs (segments (.of document store config)) {} made session ∧
          g = .of document made session := by
  rw [generate]
  cases document.error? with
  | some invalid => simp
  | none =>
    simp only [synthesize_eq, Runs, true_and]
    rcases outcome (segments (.of document store config)) {} with ⟨result, session⟩
    cases result with
    | error e => simp
    | ok made => simp [eq_comm]

/-- A run fails on a document that is not usable, or in one of its steps. -/
theorem generate_eq_error {e : SynthesisError} :
    generate document store config = .error e ↔
      (∃ invalid, document.error? = some invalid ∧ e = .invalidSchema invalid) ∨
        document.error? = none ∧ Fails (segments (.of document store config)) {} e := by
  rw [generate]
  cases document.error? with
  | some invalid => simp [eq_comm]
  | none =>
    simp only [synthesize_eq, Fails, true_and]
    rcases outcome (segments (.of document store config)) {} with ⟨result, session⟩
    cases result with
    | error e' => simp
    | ok made => simp

theorem exists_generation_of_isOk (isOk : (generate document store config).isOk) :
    ∃ g, generate document store config = .ok g := by
  cases made : generate document store config with
  | ok g => exact ⟨g, rfl⟩
  | error e =>
    rw [made] at isOk
    cases isOk

end Outcomes

end Typings

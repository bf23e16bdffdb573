import Mathlib.Data.List.Forall2
import Typings.Synthesis.Session

/-! # Outcomes of steps

A step takes a session to a result or an error, and leaves another session. This module inverts the
ways in which steps are put together, so that no other proof opens the monad.

* `Synth.Runs`, `Synth.Fails`: the two outcomes of a step.
* `Synth.SucceedsIff`: a step whose success hinges on a condition, in whatever session it is taken.
* `Synth.FailsOnly`: the errors that a step can end with.
* `Synth.Uses`: the overrides and members that a step notes as used.
* `Synth.NotesOf`: the advisories of a kind that a step notes.
-/

namespace Typings.Synth

variable {α β : Type}

/-! ## Outcomes -/

/-- The outcome of a step in a session, with the session that it leaves. -/
def outcome (step : Synth α) (session : Session) : Except SynthesisError α × Session :=
  step.run.run session

theorem outcome_bind (step : Synth α) (next : α → Synth β) (session : Session) :
    outcome (step >>= next) session =
      match outcome step session with
      | (.ok x, left) => outcome (next x) left
      | (.error e, left) => (.error e, left) := by
  unfold outcome ExceptT.run StateT.run
  simp only [bind, ExceptT.bind, ExceptT.mk, StateT.bind, ExceptT.bindCont]
  rcases step session with ⟨result, left⟩
  cases result <;> rfl

theorem outcome_map (f : α → β) (step : Synth α) (session : Session) :
    outcome (f <$> step) session =
      match outcome step session with
      | (.ok x, left) => (.ok (f x), left)
      | (.error e, left) => (.error e, left) := by
  unfold outcome ExceptT.run StateT.run
  simp only [Functor.map, ExceptT.map, ExceptT.mk, bind, StateT.bind]
  rcases step session with ⟨result, left⟩
  cases result <;> rfl

/-- In `session` the step succeeds with `x`, and it leaves `session'`. -/
def Runs (step : Synth α) (session : Session) (x : α) (session' : Session) : Prop :=
  outcome step session = (.ok x, session')

/-- In `session` the step ends with an error. -/
def Fails (step : Synth α) (session : Session) (e : SynthesisError) : Prop :=
  ∃ session', outcome step session = (.error e, session')

theorem Runs.not_fails {step : Synth α} {session session' : Session} {x : α} {e : SynthesisError}
    (runs : Runs step session x session') : ¬ Fails step session e := by
  rintro ⟨left, fails⟩
  rw [runs] at fails
  cases fails

theorem Fails.unique {step : Synth α} {s : Session} {e e' : SynthesisError}
    (fails : Fails step s e) (fails' : Fails step s e') : e = e' := by
  obtain ⟨_, ends⟩ := fails
  obtain ⟨_, ends'⟩ := fails'
  rw [ends] at ends'
  cases ends'
  rfl

theorem exists_runs_of_isOk {step : Synth α} {s : Session} (isOk : (outcome step s).1.isOk) :
    ∃ x s', Runs step s x s' := by
  rcases made : outcome step s with ⟨result, s'⟩
  cases result with
  | ok x => exact ⟨x, s', made⟩
  | error e =>
    rw [made] at isOk
    cases isOk

/-! ## Success -/

@[simp] theorem runs_pure {x y : α} {s s' : Session} :
    Runs (pure x) s y s' ↔ x = y ∧ s = s' := by
  change ((Except.ok x : Except SynthesisError α), s) = (.ok y, s') ↔ _
  simp

/-- A sequence runs if its steps do, one from the session that the other leaves. -/
theorem runs_bind {step : Synth α} {next : α → Synth β} {s s'' : Session} {y : β} :
    Runs (step >>= next) s y s'' ↔ ∃ x s', Runs step s x s' ∧ Runs (next x) s' y s'' := by
  simp only [Runs, outcome_bind]
  rcases outcome step s with ⟨result, left⟩
  cases result with
  | ok x =>
    constructor
    · intro runs
      exact ⟨x, left, rfl, runs⟩
    · rintro ⟨_, _, same, runs⟩
      cases same
      exact runs
  | error e => simp

@[simp] theorem runs_map {f : α → β} {step : Synth α} {s s' : Session} {y : β} :
    Runs (f <$> step) s y s' ↔ ∃ x, Runs step s x s' ∧ f x = y := by
  simp only [Runs, outcome_map]
  rcases outcome step s with ⟨result, left⟩
  cases result with
  | ok x =>
    constructor
    · intro runs
      cases runs
      exact ⟨x, rfl, rfl⟩
    · rintro ⟨_, same, rfl⟩
      cases same
      rfl
  | error e => simp

@[simp] theorem not_runs_throw {e : SynthesisError} {x : α} {s s' : Session} :
    ¬ Runs (throw e) s x s' := by
  intro runs
  cases runs

@[simp] theorem runs_get {s t s' : Session} :
    Runs (get : Synth Session) s t s' ↔ s = t ∧ s = s' := by
  change ((Except.ok s : Except SynthesisError Session), s) = (.ok t, s') ↔ _
  simp

@[simp] theorem runs_note {advisory : Advisory} {x : Unit} {s s' : Session} :
    Runs (note advisory) s x s' ↔ s.note advisory = s' := by
  change ((Except.ok () : Except SynthesisError Unit), s.note advisory) = (.ok x, s') ↔ _
  simp

@[simp] theorem runs_use {entity : String} {x : Unit} {s s' : Session} :
    Runs (use entity) s x s' ↔ s.use entity = s' := by
  change ((Except.ok () : Except SynthesisError Unit), s.use entity) = (.ok x, s') ↔ _
  simp

@[simp] theorem runs_useMember {entity member : String} {x : Unit} {s s' : Session} :
    Runs (useMember entity member) s x s' ↔ s.useMember entity member = s' := by
  change ((Except.ok () : Except SynthesisError Unit), s.useMember entity member) = (.ok x, s') ↔ _
  simp

/-! ## Errors -/

@[simp] theorem not_fails_pure {x : α} {s : Session} {e : SynthesisError} :
    ¬ Fails (pure x) s e :=
  Runs.not_fails (runs_pure.2 ⟨rfl, rfl⟩)

@[simp] theorem fails_throw {e e' : SynthesisError} {s : Session} :
    Fails (throw e : Synth α) s e' ↔ e = e' := by
  constructor
  · rintro ⟨_, fails⟩
    cases fails
    rfl
  · rintro rfl
    exact ⟨s, rfl⟩

/-- A sequence fails in its first step, or in the second one after the first has run. -/
theorem fails_bind {step : Synth α} {next : α → Synth β} {s : Session} {e : SynthesisError} :
    Fails (step >>= next) s e ↔
      Fails step s e ∨ ∃ x s', Runs step s x s' ∧ Fails (next x) s' e := by
  simp only [Fails, Runs, outcome_bind]
  rcases outcome step s with ⟨result, left⟩
  cases result with
  | ok x =>
    constructor
    · intro fails
      exact .inr ⟨x, left, rfl, fails⟩
    · rintro (⟨_, same⟩ | ⟨_, _, same, fails⟩)
      · cases same
      · cases same
        exact fails
  | error e' => simp

@[simp] theorem fails_map {f : α → β} {step : Synth α} {s : Session} {e : SynthesisError} :
    Fails (f <$> step) s e ↔ Fails step s e := by
  simp only [Fails, outcome_map]
  rcases outcome step s with ⟨result, left⟩
  cases result <;> simp

@[simp] theorem not_fails_get {s : Session} {e : SynthesisError} :
    ¬ Fails (get : Synth Session) s e :=
  Runs.not_fails (runs_get.2 ⟨rfl, rfl⟩)

@[simp] theorem not_fails_note {advisory : Advisory} {s : Session} {e : SynthesisError} :
    ¬ Fails (note advisory) s e :=
  Runs.not_fails (x := ()) (runs_note.2 rfl)

@[simp] theorem not_fails_use {entity : String} {s : Session} {e : SynthesisError} :
    ¬ Fails (use entity) s e :=
  Runs.not_fails (x := ()) (runs_use.2 rfl)

@[simp] theorem not_fails_useMember {entity member : String} {s : Session} {e : SynthesisError} :
    ¬ Fails (useMember entity member) s e :=
  Runs.not_fails (x := ()) (runs_useMember.2 rfl)

/-! ## Alternatives -/

theorem ite_bind (p : Prop) [Decidable p] (step step' : Synth α) (next : α → Synth β) :
    (if p then step else step') >>= next = if p then step >>= next else step' >>= next := by
  split <;> rfl

/-! ## Lists of steps -/

@[simp] theorem each_nil {step : α → Synth β} : each step [] = pure [] := rfl

theorem each_cons {step : α → Synth β} {x : α} {xs : List α} :
    each step (x :: xs) = do
      let y ← step x
      let ys ← each step xs
      return y :: ys := rfl

theorem runs_each_cons {step : α → Synth β} {x : α} {xs : List α} {s s'' : Session}
    {result : List β} :
    Runs (each step (x :: xs)) s result s'' ↔
      ∃ y s' ys, Runs (step x) s y s' ∧ Runs (each step xs) s' ys s'' ∧ y :: ys = result := by
  simp only [each_cons, runs_bind, runs_pure]
  constructor
  · rintro ⟨y, s', first, ys, _, others, rfl, rfl⟩
    exact ⟨y, s', ys, first, others, rfl⟩
  · rintro ⟨y, s', ys, first, others, rfl⟩
    exact ⟨y, s', first, ys, s'', others, rfl, rfl⟩

/-- Each result of a loop is that of a step in some session. -/
theorem Runs.forall₂ {step : α → Synth β} {xs : List α} {ys : List β} {s s' : Session}
    (runs : Runs (each step xs) s ys s') :
    List.Forall₂ (fun x y => ∃ t t', Runs (step x) t y t') xs ys := by
  induction xs generalizing ys s with
  | nil =>
    simp only [each_nil, runs_pure] at runs
    obtain ⟨rfl, _⟩ := runs
    exact .nil
  | cons x xs ih =>
    obtain ⟨y, t, ys, first, others, rfl⟩ := runs_each_cons.1 runs
    exact .cons ⟨s, t, first⟩ (ih others)

theorem exists_of_forall₂ {R : α → β → Prop} {xs : List α} {ys : List β}
    (related : List.Forall₂ R xs ys) {x : α} (isMember : x ∈ xs) : ∃ y ∈ ys, R x y := by
  induction related with
  | nil => cases isMember
  | cons here _ ih =>
    rcases List.mem_cons.1 isMember with rfl | isMember
    · exact ⟨_, List.mem_cons_self, here⟩
    · obtain ⟨y, isMember, holds⟩ := ih isMember
      exact ⟨y, List.mem_cons_of_mem _ isMember, holds⟩

theorem map_eq_of_forall₂ {γ : Type} {R : α → β → Prop} {f : α → γ} {g : β → γ} {xs : List α}
    {ys : List β} (related : List.Forall₂ R xs ys) (same : ∀ x y, R x y → f x = g y) :
    xs.map f = ys.map g := by
  induction related with
  | nil => rfl
  | cons here _ ih => rw [List.map_cons, List.map_cons, ih, same _ _ here]

/-! ## Conditions for success -/

/-- The step succeeds exactly under the condition, whatever the session. -/
def SucceedsIff (step : Synth α) (condition : Prop) : Prop :=
  ∀ s, (∃ x s', Runs step s x s') ↔ condition

namespace SucceedsIff

theorem congr {step : Synth α} {p q : Prop} (succeeds : SucceedsIff step p) (same : p ↔ q) :
    SucceedsIff step q :=
  fun s => (succeeds s).trans same

theorem pure (x : α) : SucceedsIff (Pure.pure x) True :=
  fun s => ⟨fun _ => trivial, fun _ => ⟨x, s, runs_pure.2 ⟨rfl, rfl⟩⟩⟩

theorem throw (e : SynthesisError) : SucceedsIff (throw e : Synth α) False :=
  fun _ => ⟨fun ⟨_, _, runs⟩ => not_runs_throw runs, False.elim⟩

theorem get : SucceedsIff (get : Synth Session) True :=
  fun s => ⟨fun _ => trivial, fun _ => ⟨s, s, runs_get.2 ⟨rfl, rfl⟩⟩⟩

theorem note (advisory : Advisory) : SucceedsIff (note advisory) True :=
  fun _ => ⟨fun _ => trivial, fun _ => ⟨(), _, runs_note.2 rfl⟩⟩

theorem use (entity : String) : SucceedsIff (use entity) True :=
  fun _ => ⟨fun _ => trivial, fun _ => ⟨(), _, runs_use.2 rfl⟩⟩

theorem useMember (entity member : String) : SucceedsIff (useMember entity member) True :=
  fun _ => ⟨fun _ => trivial, fun _ => ⟨(), _, runs_useMember.2 rfl⟩⟩

/-- What comes after a step may rely on the results that the step can have. -/
theorem bind_of_runs {step : Synth α} {next : α → Synth β} {p q : Prop}
    (first : SucceedsIff step p)
    (second : ∀ s x s', Runs step s x s' → SucceedsIff (next x) q) :
    SucceedsIff (step >>= next) (p ∧ q) := by
  intro s
  constructor
  · rintro ⟨y, s'', runs⟩
    -- The condition of the second step is used in the session that the first one leaves.
    obtain ⟨x, s', runs, continues⟩ := runs_bind.1 runs
    exact ⟨(first s).1 ⟨x, s', runs⟩, (second s x s' runs s').1 ⟨y, s'', continues⟩⟩
  · rintro ⟨holds, holds'⟩
    obtain ⟨x, s', runs⟩ := (first s).2 holds
    obtain ⟨y, s'', continues⟩ := (second s x s' runs s').2 holds'
    exact ⟨y, s'', runs_bind.2 ⟨x, s', runs, continues⟩⟩

theorem bind {step : Synth α} {next : α → Synth β} {p q : Prop} (first : SucceedsIff step p)
    (second : ∀ x, SucceedsIff (next x) q) : SucceedsIff (step >>= next) (p ∧ q) :=
  first.bind_of_runs fun _ x _ _ => second x

theorem map {step : Synth α} {p : Prop} (f : α → β) (succeeds : SucceedsIff step p) :
    SucceedsIff (f <$> step) p := by
  intro s
  rw [← succeeds s]
  simp only [runs_map]
  exact ⟨fun ⟨_, s', x, runs, _⟩ => ⟨x, s', runs⟩, fun ⟨x, s', runs⟩ => ⟨f x, s', x, runs, rfl⟩⟩

theorem each {step : α → Synth β} {xs : List α} {p : α → Prop}
    (succeeds : ∀ x ∈ xs, SucceedsIff (step x) (p x)) :
    SucceedsIff (each step xs) (∀ x ∈ xs, p x) := by
  induction xs with
  | nil => exact (pure []).congr (by simp)
  | cons x xs ih =>
    have first := succeeds x List.mem_cons_self
    have others := ih fun y member => succeeds y (List.mem_cons_of_mem x member)
    refine (first.bind fun _ => others.bind fun _ => pure _).congr ?_
    simp

/-- A step that does not succeed fails. -/
theorem fails_iff {step : Synth α} {p : Prop} (succeeds : SucceedsIff step p) (s : Session) :
    (∃ e, Fails step s e) ↔ ¬ p := by
  rw [← succeeds s]
  rcases made : outcome step s with ⟨result, s'⟩
  cases result with
  | ok x =>
    have runs : Runs step s x s' := made
    exact iff_of_false (fun ⟨_, fails⟩ => runs.not_fails fails) (not_not_intro ⟨x, s', runs⟩)
  | error e =>
    have fails : Fails step s e := ⟨s', made⟩
    exact iff_of_true ⟨e, fails⟩ fun ⟨_, _, runs⟩ => runs.not_fails fails

end SucceedsIff

/-! ## Errors of a kind -/

/-- Every error that the step ends with satisfies `p`. -/
def FailsOnly (step : Synth α) (p : SynthesisError → Prop) : Prop :=
  ∀ s e, Fails step s e → p e

namespace FailsOnly

variable {p q : SynthesisError → Prop}

theorem mono {step : Synth α} (only : FailsOnly step p) (weaker : ∀ e, p e → q e) :
    FailsOnly step q :=
  fun s e fails => weaker e (only s e fails)

theorem pure (x : α) : FailsOnly (Pure.pure x) p :=
  fun _ _ fails => (not_fails_pure fails).elim

theorem throw {e : SynthesisError} (holds : p e) : FailsOnly (throw e : Synth α) p := by
  intro s e' fails
  rw [← fails_throw.1 fails]
  exact holds

theorem get : FailsOnly (get : Synth Session) p :=
  fun _ _ fails => (not_fails_get fails).elim

theorem note (advisory : Advisory) : FailsOnly (note advisory) p :=
  fun _ _ fails => (not_fails_note fails).elim

theorem use (entity : String) : FailsOnly (use entity) p :=
  fun _ _ fails => (not_fails_use fails).elim

theorem useMember (entity member : String) : FailsOnly (useMember entity member) p :=
  fun _ _ fails => (not_fails_useMember fails).elim

theorem bind_of_runs {step : Synth α} {next : α → Synth β} (first : FailsOnly step p)
    (second : ∀ s x s', Runs step s x s' → FailsOnly (next x) p) :
    FailsOnly (step >>= next) p := by
  intro s e fails
  rcases fails_bind.1 fails with fails | ⟨x, s', runs, fails⟩
  · exact first s e fails
  · exact second s x s' runs s' e fails

theorem bind {step : Synth α} {next : α → Synth β} (first : FailsOnly step p)
    (second : ∀ x, FailsOnly (next x) p) : FailsOnly (step >>= next) p :=
  first.bind_of_runs fun _ x _ _ => second x

theorem map {step : Synth α} (f : α → β) (only : FailsOnly step p) : FailsOnly (f <$> step) p :=
  fun s e fails => only s e (fails_map.1 fails)

theorem each {step : α → Synth β} {xs : List α} (only : ∀ x ∈ xs, FailsOnly (step x) p) :
    FailsOnly (each step xs) p := by
  induction xs with
  | nil => exact pure []
  | cons x xs ih =>
    have first := only x List.mem_cons_self
    have others := ih fun y member => only y (List.mem_cons_of_mem x member)
    exact first.bind fun _ => others.bind fun _ => pure _

end FailsOnly

/-! ## Use of overrides -/

/-- When it succeeds, the step notes exactly these overrides and members as used. -/
def Uses (step : Synth α) (overrides : List String) (members : List (String × String)) : Prop :=
  ∀ s x s', Runs step s x s' →
    (∀ entity, entity ∈ s'.usedOverrides ↔ entity ∈ s.usedOverrides ∨ entity ∈ overrides) ∧
      ∀ use, use ∈ s'.usedMembers ↔ use ∈ s.usedMembers ∨ use ∈ members

namespace Uses

variable {overrides overrides' : List String} {members members' : List (String × String)}

theorem congr {step : Synth α} (uses : Uses step overrides members)
    (same : ∀ entity, entity ∈ overrides ↔ entity ∈ overrides')
    (same' : ∀ use, use ∈ members ↔ use ∈ members') : Uses step overrides' members' := by
  intro s x s' runs
  obtain ⟨entities, uses⟩ := uses s x s' runs
  simp only [← same, ← same']
  exact ⟨entities, uses⟩

theorem pure (x : α) : Uses (Pure.pure x) [] [] := by
  intro s y s' runs
  obtain ⟨_, rfl⟩ := runs_pure.1 runs
  simp

theorem throw (e : SynthesisError) : Uses (throw e : Synth α) overrides members :=
  fun _ _ _ runs => (not_runs_throw runs).elim

theorem get : Uses (get : Synth Session) [] [] := by
  intro s t s' runs
  obtain ⟨_, rfl⟩ := runs_get.1 runs
  simp

theorem note (advisory : Advisory) : Uses (note advisory) [] [] := by
  intro s x s' runs
  obtain rfl := runs_note.1 runs
  simp [Session.note]

theorem use (entity : String) : Uses (use entity) [entity] [] := by
  intro s x s' runs
  obtain rfl := runs_use.1 runs
  simp [Session.use, or_comm]

theorem useMember (entity member : String) :
    Uses (useMember entity member) [] [(entity, member)] := by
  intro s x s' runs
  obtain rfl := runs_useMember.1 runs
  simp [Session.useMember, or_comm]

/-- The second step needs to use what it uses only behind the first one. -/
theorem bind_of_runs {step : Synth α} {next : α → Synth β} (first : Uses step overrides members)
    (second : ∀ s x s', Runs step s x s' → Uses (next x) overrides' members') :
    Uses (step >>= next) (overrides ++ overrides') (members ++ members') := by
  intro s y s'' runs
  obtain ⟨x, s', runs, continues⟩ := runs_bind.1 runs
  obtain ⟨entities, uses⟩ := first s x s' runs
  obtain ⟨entities', uses'⟩ := second s x s' runs s' y s'' continues
  constructor
  · intro entity
    rw [entities', entities, List.mem_append, or_assoc]
  · intro use
    rw [uses', uses, List.mem_append, or_assoc]

theorem bind {step : Synth α} {next : α → Synth β} (first : Uses step overrides members)
    (second : ∀ x, Uses (next x) overrides' members') :
    Uses (step >>= next) (overrides ++ overrides') (members ++ members') :=
  first.bind_of_runs fun _ x _ _ => second x

theorem map {step : Synth α} (f : α → β) (uses : Uses step overrides members) :
    Uses (f <$> step) overrides members := by
  intro s y s' runs
  obtain ⟨x, runs, _⟩ := runs_map.1 runs
  exact uses s x s' runs

theorem each {step : α → Synth β} {xs : List α} {overrides : α → List String}
    {members : α → List (String × String)}
    (uses : ∀ x ∈ xs, Uses (step x) (overrides x) (members x)) :
    Uses (each step xs) (xs.flatMap overrides) (xs.flatMap members) := by
  induction xs with
  | nil => exact pure []
  | cons x xs ih =>
    have first := uses x List.mem_cons_self
    have others := ih fun y member => uses y (List.mem_cons_of_mem x member)
    have whole := first.bind fun y => others.bind fun ys => pure (y :: ys)
    rw [List.flatMap_cons, List.flatMap_cons, each_cons]
    simpa only [List.append_nil] using whole

end Uses

/-! ## Advisories of a kind -/

/-- When it succeeds, the step appends to the advisories, and those of the kind among them are the
    ones noted. -/
def NotesOf (kind : Advisory → Bool) (step : Synth α) (noted : List Advisory) : Prop :=
  ∀ s x s', Runs step s x s' →
    ∃ added, s'.advisories = s.advisories ++ added ∧ added.filter kind = noted

namespace NotesOf

variable {kind : Advisory → Bool} {noted noted' : List Advisory}

theorem pure (x : α) : NotesOf kind (Pure.pure x) [] := by
  intro s y s' runs
  obtain ⟨_, rfl⟩ := runs_pure.1 runs
  exact ⟨[], by simp⟩

theorem throw (e : SynthesisError) : NotesOf kind (throw e : Synth α) noted :=
  fun _ _ _ runs => (not_runs_throw runs).elim

theorem note (advisory : Advisory) : NotesOf kind (note advisory) ([advisory].filter kind) := by
  intro s x s' runs
  obtain rfl := runs_note.1 runs
  exact ⟨[advisory], rfl, rfl⟩

theorem bind {step : Synth α} {next : α → Synth β} (first : NotesOf kind step noted)
    (second : ∀ x, NotesOf kind (next x) noted') :
    NotesOf kind (step >>= next) (noted ++ noted') := by
  intro s y s'' runs
  obtain ⟨x, s', runs, continues⟩ := runs_bind.1 runs
  obtain ⟨added, appended, same⟩ := first s x s' runs
  obtain ⟨added', appended', same'⟩ := second x s' y s'' continues
  refine ⟨added ++ added', ?_, ?_⟩
  · rw [appended', appended, List.append_assoc]
  · rw [List.filter_append, same, same']

theorem andThen {step : Synth α} {next : α → Synth β} (first : NotesOf kind step noted)
    (second : ∀ x, NotesOf kind (next x) []) : NotesOf kind (step >>= next) noted := by
  have both := first.bind second
  rwa [List.append_nil] at both

theorem map {step : Synth α} (f : α → β) (notes : NotesOf kind step noted) :
    NotesOf kind (f <$> step) noted := by
  rw [map_eq_pure_bind]
  exact notes.andThen fun x => pure (f x)

theorem each {step : α → Synth β} {xs : List α} {noted : α → List Advisory}
    (notes : ∀ x ∈ xs, NotesOf kind (step x) (noted x)) :
    NotesOf kind (each step xs) (xs.flatMap noted) := by
  induction xs with
  | nil => exact pure []
  | cons x xs ih =>
    have first := notes x List.mem_cons_self
    have others := ih fun y isMember => notes y (List.mem_cons_of_mem x isMember)
    exact first.bind fun y => others.andThen fun ys => pure (y :: ys)

theorem each_nothing {step : α → Synth β} {xs : List α}
    (notes : ∀ x ∈ xs, NotesOf kind (step x) []) : NotesOf kind (Synth.each step xs) [] := by
  have all := each notes
  rwa [List.flatMap_eq_nil_iff.2 fun _ _ => rfl] at all

end NotesOf

end Typings.Synth

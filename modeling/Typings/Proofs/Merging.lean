import Typings.Proofs.SchemaStep
import Typings.Synthesis.Events

/-! # Merging

The schema asks the override of an entity for members of certain names and shapes. This module
says what a merge makes of what was asked for, which members of the override it claims, and when it
fails.

* `AskedMember`: a member that the schema asks for.
* `Synth.Answers`: what becomes of it, given the override.
* `Synth.Merges`, `Synth.MergesAll`: the steps that merge one asked member, or several in a row.
-/

namespace Typings

/-! ## Documentation of members -/

@[simp] theorem Member.name?_withDoc (doc : Option String) (member : Member) :
    (member.withDoc doc).name? = member.name? := by
  cases member <;> rfl

@[simp] theorem Member.shape_withDoc (doc : Option String) (member : Member) :
    (member.withDoc doc).shape = member.shape := by
  cases member <;> rfl

/-! ## Asked members -/

/-- A member that the schema asks an override for. -/
structure AskedMember where
  name : String
  shape : MemberShape
  deriving DecidableEq, Repr

def Schema.Method.asked (method : Schema.Method) : AskedMember :=
  ⟨method.name, .method⟩

/-- An attribute that can only be written asks for a setter, any other one for a property. -/
def Schema.Attribute.asked (attr : Schema.Attribute) : AskedMember :=
  ⟨attr.name, if attr.isWriteOnly then .setter else .property⟩

def Schema.Parameter.asked (parameter : Schema.Parameter) : AskedMember :=
  ⟨parameter.name, .property⟩

def Schema.NamedOption.asked (option : Schema.NamedOption) : AskedMember :=
  ⟨option.name, .property⟩

/-- The length operator asks for a property of a name of its own. -/
def Schema.Attribute.askedLength (_ : Schema.Attribute) : AskedMember :=
  ⟨lengthMember, .property⟩

/-- The first member of the name that an override has, if there is an override. -/
def memberOf? (o : Option Override) (name : String) : Option Member :=
  o.bind (·.member? name)

def AskedMember.Fits (asked : AskedMember) (o : Option Override) : Prop :=
  ∀ found, memberOf? o asked.name = some found → found.shape = asked.shape

/-- What a merge for the entity claims: the asked member, if the override has one of the name. -/
def AskedMember.claims (entity : String) (o : Option Override) (asked : AskedMember) :
    List (String × String) :=
  if (memberOf? o asked.name).isSome then [(entity, asked.name)] else []

theorem AskedMember.mem_claims {entity : String} {o : Option Override} {asked : AskedMember}
    {use : String × String} :
    use ∈ asked.claims entity o ↔ use = (entity, asked.name) ∧ (memberOf? o asked.name).isSome := by
  rw [AskedMember.claims]
  split <;> simp_all

namespace Synth

open Schema (Attribute Method NamedOption Parameter)

/-- A member that is the found one, but for a documentation if it had none. -/
def DocumentedAs (found member : Member) : Prop :=
  ∃ doc, member = withDefaultDoc doc found

/-- What becomes of an asked member: the first one of the name that the override has, or else a
    member of the asked name and shape. -/
inductive Answers (o : Option Override) (asked : AskedMember) (member : Member) : Prop where
  | claimed {found : Member} (isFound : memberOf? o asked.name = some found)
      (fits : found.shape = asked.shape) (same : DocumentedAs found member)
  | synthesized (absent : memberOf? o asked.name = none) (named : member.name? = some asked.name)
      (shaped : member.shape = asked.shape)

/-- The error says that the override has a member of the asked name in another shape. -/
def IsMismatch (entity : String) (o : Option Override) (asked : AskedMember)
    (e : SynthesisError) : Prop :=
  ∃ found, memberOf? o asked.name = some found ∧ found.shape ≠ asked.shape ∧
    e = .memberShapeMismatch entity asked.name asked.shape found.shape

/-! ## Steps that merge -/

variable {α β : Type}

/-- The step merges one asked member, which `view` finds in its result. -/
structure Merges (step : Synth α) (view : α → Member) (entity : String) (o : Option Override)
    (asked : AskedMember) (remarks : List String) : Prop where
  answers : ∀ s x s', Runs step s x s' → Answers o asked (view x)
  uses : Uses step [] (asked.claims entity o)
  fails : FailsOnly step fun e => IsUnknownOperator e ∨ IsMismatch entity o asked e
  succeeds : AllKnown remarks → SucceedsIff step (asked.Fits o)

/-- The step merges asked members in a row, which `view` finds in its result. -/
structure MergesAll (step : Synth α) (view : α → List Member) (entity : String)
    (o : Option Override) (asked : List AskedMember) (remarks : List String) : Prop where
  answers : ∀ s x s', Runs step s x s' → List.Forall₂ (Answers o) asked (view x)
  uses : Uses step [] (asked.flatMap (·.claims entity o))
  fails : FailsOnly step fun e => IsUnknownOperator e ∨ ∃ a ∈ asked, IsMismatch entity o a e
  succeeds : AllKnown remarks → SucceedsIff step (∀ a ∈ asked, a.Fits o)

theorem MergesAll.each {step : α → Synth β} {view : β → Member} {entity : String}
    {o : Option Override} {xs : List α} {asked : α → AskedMember} {remarks : α → List String}
    (merges : ∀ x ∈ xs, Merges (step x) view entity o (asked x) (remarks x)) :
    MergesAll (each step xs) (List.map view) entity o (xs.map asked) (xs.flatMap remarks) where
  answers := by
    intro s ys s' runs
    rw [List.forall₂_map_left_iff, List.forall₂_map_right_iff]
    refine ((List.forall₂_and_left _ _).2 ⟨merges, runs.forall₂⟩).imp ?_
    rintro x y ⟨merges, t, t', runs⟩
    exact merges.answers t y t' runs
  uses := by
    rw [List.flatMap_map]
    have uses := Uses.each fun x isMember => (merges x isMember).uses
    -- None of the merges looks up an override.
    rwa [List.flatMap_eq_nil_iff.2 fun _ _ => rfl] at uses
  fails := by
    refine FailsOnly.each fun x isMember => (merges x isMember).fails.mono fun e => ?_
    rintro (unknown | mismatch)
    · exact .inl unknown
    · exact .inr ⟨asked x, List.mem_map_of_mem isMember, mismatch⟩
  succeeds known := by
    have succeeds := SucceedsIff.each fun x isMember =>
      (merges x isMember).succeeds (allKnown_flatMap.1 known x isMember)
    exact succeeds.congr (by simp)

theorem MergesAll.mono {step : Synth α} {view : α → List Member} {entity : String}
    {o : Option Override} {asked : List AskedMember} {remarks remarks' : List String}
    (merges : MergesAll step view entity o asked remarks)
    (more : AllKnown remarks' → AllKnown remarks) : MergesAll step view entity o asked remarks' :=
  ⟨merges.answers, merges.uses, merges.fails, fun known => merges.succeeds (more known)⟩

/-- Rendering a remark in front of a merge does not change what is merged. -/
theorem Merges.after {first : Synth β} {next : β → Synth α} {view : α → Member} {entity : String}
    {o : Option Override} {asked : AskedMember} {remarks : List String}
    (renders : Renders first remarks)
    (merges : ∀ x, Merges (next x) view entity o asked remarks) :
    Merges (first >>= next) view entity o asked remarks where
  answers := by
    intro s y s'' runs
    obtain ⟨x, s', _, continues⟩ := runs_bind.1 runs
    exact (merges x).answers s' y s'' continues
  uses := renders.uses.bind fun x => (merges x).uses
  fails := (renders.fails.mono fun _ => .inl).bind fun x => (merges x).fails
  succeeds known := by
    have both := (renders.succeeds known).bind fun x => (merges x).succeeds known
    exact both.congr (by simp)

/-! ## Single members -/

section Claims

variable {entity : String} {o : Option Override} {asked : AskedMember} {doc : Option String}

theorem claimMember_absent (absent : memberOf? o asked.name = none) :
    claimMember entity o asked.name asked.shape doc = pure none := by
  rw [memberOf?] at absent
  rw [claimMember, absent]

theorem claimMember_fits {found : Member} (isFound : memberOf? o asked.name = some found)
    (fits : found.shape = asked.shape) :
    claimMember entity o asked.name asked.shape doc = do
      useMember entity asked.name
      return some (withDefaultDoc doc found) := by
  rw [memberOf?] at isFound
  simp only [claimMember, isFound, fits, if_true]

theorem claimMember_conflict {found : Member} (isFound : memberOf? o asked.name = some found)
    (conflict : found.shape ≠ asked.shape) :
    claimMember entity o asked.name asked.shape doc =
      throw (.memberShapeMismatch entity asked.name asked.shape found.shape) := by
  rw [memberOf?] at isFound
  simp only [claimMember, isFound, conflict, if_false]

/-- Without a member to claim, a step that makes one from the schema alone merges. -/
theorem merges_synthesized {step : Synth α} {view : α → Member} {remarks : List String}
    (absent : memberOf? o asked.name = none) (renders : Renders step remarks)
    (makes : ∀ s x s', Runs step s x s' →
      (view x).name? = some asked.name ∧ (view x).shape = asked.shape) :
    Merges step view entity o asked remarks where
  answers := by
    intro s x s' runs
    obtain ⟨named, shaped⟩ := makes s x s' runs
    exact .synthesized absent named shaped
  uses := by
    rw [AskedMember.claims, absent]
    exact renders.uses
  fails := renders.fails.mono fun _ => .inl
  succeeds known := by
    refine (renders.succeeds known).congr (iff_of_true trivial fun found same => ?_)
    rw [absent] at same
    cases same

/-- A member that is found in the asked shape is used, and it is the result. -/
theorem merges_claimed {view : α → Member} {remarks : List String} {x : α} {found : Member}
    (isFound : memberOf? o asked.name = some found) (fits : found.shape = asked.shape)
    (same : DocumentedAs found (view x)) :
    Merges (do useMember entity asked.name; return x) view entity o asked remarks where
  answers := by
    intro s y s' runs
    obtain ⟨_, t, _, runs⟩ := runs_bind.1 runs
    obtain ⟨rfl, _⟩ := runs_pure.1 runs
    exact .claimed isFound fits same
  uses := by
    rw [AskedMember.claims, isFound]
    exact (Uses.useMember entity asked.name).bind fun _ => .pure x
  fails := (FailsOnly.useMember entity asked.name).bind fun _ => .pure x
  succeeds _ := by
    have claims := (SucceedsIff.useMember entity asked.name).bind fun _ => .pure x
    refine claims.congr (iff_of_true ⟨trivial, trivial⟩ fun found' isFound' => ?_)
    rw [isFound] at isFound'
    cases isFound'
    exact fits

theorem merges_conflict {view : α → Member} {remarks : List String} {found : Member}
    (isFound : memberOf? o asked.name = some found) (conflict : found.shape ≠ asked.shape) :
    Merges (throw (.memberShapeMismatch entity asked.name asked.shape found.shape)) view entity o
      asked remarks where
  answers _ _ _ runs := (not_runs_throw runs).elim
  uses := .throw _
  fails := .throw (.inr ⟨found, isFound, conflict, rfl⟩)
  succeeds _ :=
    (SucceedsIff.throw _).congr (iff_of_false id fun fits => conflict (fits found isFound))

variable (asked)

/-- A claim merges if what follows passes the claimed member on, and makes one of the asked name and
    shape from the schema alone when there is none to claim. -/
theorem claim_merges {next : Option Member → Synth α} {view : α → Member}
    {remarks : List String} (pass : Member → α) (passes : ∀ m, next (some m) = pure (pass m))
    (views : ∀ m, view (pass m) = m) (renders : Renders (next none) remarks)
    (makes : ∀ s x s', Runs (next none) s x s' →
      (view x).name? = some asked.name ∧ (view x).shape = asked.shape) :
    Merges (claimMember entity o asked.name asked.shape doc >>= next) view entity o asked
      remarks := by
  -- The three outcomes of a claim: nothing to claim, a member that fits, a member that does not.
  cases isFound : memberOf? o asked.name with
  | none =>
    rw [claimMember_absent isFound, pure_bind]
    exact merges_synthesized isFound renders makes
  | some found =>
    by_cases fits : found.shape = asked.shape
    · rw [claimMember_fits isFound fits, bind_assoc]
      simp only [pure_bind, passes]
      exact merges_claimed isFound fits ⟨doc, views _⟩
    · rw [claimMember_conflict isFound fits]
      exact merges_conflict isFound fits

/-- A member is merged if what is made without an override has the asked name and shape. -/
theorem mergeMember_merges {synthesize : Synth Member} {remarks : List String}
    (renders : Renders synthesize remarks)
    (makes : ∀ s m s', Runs synthesize s m s' →
      m.name? = some asked.name ∧ m.shape = asked.shape) :
    Merges (mergeMember entity o asked.name asked.shape doc synthesize) id entity o asked
      remarks := by
  refine claim_merges asked id (fun _ => rfl) (fun _ => rfl) (renders.bind fun m => .pure _) ?_
  intro s m s' runs
  obtain ⟨m', t, made, passes⟩ := runs_bind.1 runs
  obtain ⟨rfl, _⟩ := runs_pure.1 passes
  simpa using makes s m' t made

end Claims

/-! ## Members of entities -/

variable (ctx : Context) (entity : String) (o : Option Override)

/-- What is made of an attribute has the name and the shape that it asks for. -/
theorem synthesizeAttribute_makes {attr : Attribute} {s s' : Session} {m : Member}
    (runs : Runs (synthesizeAttribute ctx entity attr) s m s') :
    m.name? = some attr.asked.name ∧ m.shape = attr.asked.shape := by
  rw [synthesizeAttribute] at runs
  obtain ⟨ty, t, _, runs⟩ := runs_bind.1 runs
  simp only [Attribute.asked]
  split at runs
  next writeOnly =>
    obtain ⟨rfl, _⟩ := runs_pure.1 runs
    rw [if_pos writeOnly]
    exact ⟨rfl, rfl⟩
  next readable =>
    obtain ⟨rfl, _⟩ := runs_pure.1 runs
    rw [if_neg readable]
    exact ⟨rfl, rfl⟩

theorem mergeAttribute_merges (attr : Attribute) :
    Merges (mergeAttribute ctx entity o attr) id entity o attr.asked attr.remarks :=
  .after (attributeDoc_renders ctx _ attr) fun _ =>
    mergeMember_merges attr.asked (synthesizeAttribute_renders ctx entity attr) fun _ _ _ runs =>
      synthesizeAttribute_makes ctx entity runs

theorem mergeParameter_merges (parameter : Parameter) :
    Merges (mergeParameter ctx entity o parameter) id entity o parameter.asked
      parameter.remarks := by
  refine .after (parameterDoc_renders ctx _ parameter) fun _ =>
    mergeMember_merges parameter.asked (synthesizeParameter_renders ctx entity parameter)
      fun s m s' runs => ?_
  obtain ⟨ty, t, _, runs⟩ := runs_bind.1 runs
  obtain ⟨rfl, _⟩ := runs_pure.1 runs
  exact ⟨rfl, rfl⟩

theorem flagMember_merges (option : NamedOption) :
    Merges (flagMember ctx entity o option) id entity o option.asked [option.description] := by
  have renders : Renders (describe ctx (entity ++ "." ++ option.name) option.description)
      [option.description] := (describe_fromSchema ctx _ option.description).renders (by simp)
  refine .after renders fun _ => mergeMember_merges option.asked (.pure _) fun s m s' runs => ?_
  obtain ⟨rfl, _⟩ := runs_pure.1 runs
  exact ⟨rfl, rfl⟩

/-- A method asks for a method, whatever its parameters need besides. -/
theorem mergeMethod_merges (method : Method) :
    Merges (mergeMethod ctx entity o method) Prod.snd entity o method.asked method.remarks := by
  -- A claimed method comes without declarations of its own.
  refine .after (methodDoc_renders ctx _ method) fun doc =>
    claim_merges method.asked (fun m => ([], m)) (fun _ => rfl) (fun _ => rfl) ?_
      fun s x s' runs => ?_
  · exact (signature_renders ctx entity method).bind fun _ => .pure _
  · obtain ⟨⟨decls, params, ret⟩, t, _, runs⟩ := runs_bind.1 runs
    obtain ⟨rfl, _⟩ := runs_pure.1 runs
    exact ⟨rfl, rfl⟩

/-- A length has a name of its own, and is merged like an attribute. -/
theorem mergeLength_merges (length : Attribute) (arrayLike : Bool) :
    Merges (mergeLength ctx entity o length arrayLike) id entity o length.askedLength
      length.remarks := by
  have renders : Renders (describe ctx (entity ++ ".operator #") length.description)
      length.remarks := by
    refine (describe_fromSchema ctx _ length.description).renders ?_
    simp only [Attribute.remarks, allKnown_append, allKnown_cons]
    rintro ⟨⟨known, _⟩, _⟩
    exact known
  refine .after renders fun _ =>
    mergeMember_merges length.askedLength (synthesizeLength_renders ctx _ length arrayLike)
      fun s m s' runs => ?_
  obtain ⟨ty, t, _, runs⟩ := runs_bind.1 runs
  obtain ⟨rfl, _⟩ := runs_pure.1 runs
  exact ⟨rfl, rfl⟩

end Synth

end Typings

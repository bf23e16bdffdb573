import Typings.Proofs.ClassMembers
import Typings.Proofs.Fit
import Typings.Proofs.QuietSteps
import Typings.Proofs.ShapeConflict

/-! # Array-like classes

A class whose override extends an array type is array-like. With a type for its index it is split in
two, without one it stays whole and a note says so. A class that is not array-like stays whole, and
its length is a method.

* `Schema.Class.ArrayLike`, `Schema.Class.HasIndex`: what the split hinges on.
* `Synth.classParts`, `Synth.classIndex`: the step of a class, up to the index and at it.
* `Synth.classDeclarations_splits`: what becomes of a class, by the two conditions.
-/

namespace Typings

open Schema (Attribute)

/-! ## What the split hinges on -/

/-- Only the two array types with one argument make a class array-like. -/
theorem Ty.isArraySupertype_iff {ty : Ty} :
    ty.isArraySupertype ↔
      ∃ element, ty = .reference "ReadonlyArray" [element] ∨ ty = .reference "Array" [element] := by
  unfold Ty.isArraySupertype
  split
  next name element => simp [exists_or]
  next other =>
    refine iff_of_false Bool.false_ne_true ?_
    rintro ⟨element, rfl | rfl⟩
    · exact other _ _ rfl
    · exact other _ _ rfl

namespace Schema.Class

variable (c : Class) (store : OverrideStore)

/-- The override of the class extends an array type with one argument. -/
def ArrayLike : Prop :=
  ∃ o element, store.get? c.name = some o ∧
    (.reference "ReadonlyArray" [element] ∈ o.supertypes ∨
      .reference "Array" [element] ∈ o.supertypes)

/-- The type of the index that the override of the class gives. -/
def givenIndex? : Option Ty :=
  (store.get? c.name).bind (·.indexShape)

/-- The class has a type for its index, from its override or from an operator. -/
def HasIndex : Prop :=
  (c.givenIndex? store).isSome ∨ ∃ index, .index index ∈ c.operators

variable {c store}

theorem arrayLike_iff : c.ArrayLike store ↔ (store.get? c.name).any (·.isArrayLike) := by
  simp only [ArrayLike, Option.any_eq_true, Override.isArrayLike, List.any_eq_true,
    Ty.isArraySupertype_iff]
  constructor
  · rintro ⟨o, element, isFound, isMember | isMember⟩
    · exact ⟨o, isFound, _, isMember, element, .inl rfl⟩
    · exact ⟨o, isFound, _, isMember, element, .inr rfl⟩
  · rintro ⟨o, isFound, ty, isMember, element, rfl | rfl⟩
    · exact ⟨o, element, isFound, .inl isMember⟩
    · exact ⟨o, element, isFound, .inr isMember⟩

theorem isSome_indexOperator? : c.indexOperator?.isSome ↔ ∃ index, .index index ∈ c.operators := by
  rw [indexOperator?, List.findSome?_isSome_iff]
  constructor
  · rintro ⟨operator, isMember, isIndex⟩
    cases operator with
    | index index => exact ⟨index, isMember⟩
    | call call => cases isIndex
    | length length => cases isIndex
  · rintro ⟨index, isMember⟩
    exact ⟨.index index, isMember, rfl⟩

theorem hasIndex_iff :
    c.HasIndex store ↔ ((c.givenIndex? store).isSome || c.indexOperator?.isSome) := by
  rw [HasIndex, ← isSome_indexOperator?, Bool.or_eq_true]

end Schema.Class

namespace Synth

/-! ## The step of a class -/

/-- What a class is made of, before its index. -/
structure ClassParts where
  override : Option Override
  doc : Option String
  helpers : List Declaration
  members : List Member

def classParts (ctx : Context) (c : Schema.Class) : Synth ClassParts := do
  let o ← findOverride ctx c.name [.structural]
  let doc ← describeEntity ctx c.name c.description c.notes c.examples
  let (helpers, own) ← schemaMembers ctx c o c.hasTriad (o.any (·.isArrayLike))
  let members ← appendUnclaimed c.name o own
  return ⟨o, doc, helpers, members⟩

def classIndex (ctx : Context) (c : Schema.Class) (o : Option Override) : Synth (Option Ty) :=
  if o.any (·.isArrayLike) then do
    match ← indexType ctx c o with
    | some index => return some index
    | none =>
      note (.missingIndexShape c.name)
      return none
  else return none

/-- The step of a class in two parts: what every class is made of, and the index. -/
theorem classDeclarations_eq (ctx : Context) (c : Schema.Class) :
    classDeclarations ctx c = do
      let parts ← classParts ctx c
      let index ← classIndex ctx c parts.override
      return parts.helpers ++ classBlock c.name
        (classSupertypes ctx c parts.override c.hasTriad) parts.members parts.doc index := by
  simp only [classDeclarations, classParts, classIndex, bind_assoc, pure_bind]
  -- The two sides part where the class looks at its index.
  refine bind_congr fun o => bind_congr fun doc => bind_congr fun made =>
    bind_congr fun members => ?_
  split
  · rw [bind_assoc]
    refine bind_congr fun index => ?_
    cases index with
    | some index => rfl
    | none => simp only [bind_assoc, pure_bind, classBlock]
  · rfl

/-- The step of the class in the session comes as far as its index. -/
def ReachesIndex (ctx : Context) (c : Schema.Class) (s : Session) : Prop :=
  ∃ parts t, Runs (classParts ctx c) s parts t

variable {ctx : Context} {c : Schema.Class} {o : Option Override} {s s' : Session}

/-! ## Up to the index -/

/-- The members have a property for the length, with nothing behind it but members of the override.
    Its type is that of the operator in an array-like class, and a method otherwise. -/
def HasLength (ctx : Context) (c : Schema.Class) (length : Attribute) (members : List Member) :
    Prop :=
  ∃ raw ty front doc beyond, Makes (mapType ctx (c.name ++ ".operator #") length.type) raw ∧
    members = front ++ .property lengthMember ty false true doc :: beyond ∧
    beyond.Sublist (((ctx.overrides.get? c.name).map (·.members)).getD []) ∧
    (ty = raw ↔ c.ArrayLike ctx.overrides) ∧
    (ty = .reference "LuaLengthMethod" [raw] ↔ ¬ c.ArrayLike ctx.overrides)

theorem findOverride_fails (entity : String) (allowed : List OverrideKind) :
    FailsOnly (findOverride ctx entity allowed)
      fun e => ∃ found, e = .overrideKindMismatch entity (.oneOf allowed) found := by
  rw [findOverride]
  split
  · exact .pure _
  · split
    · exact (FailsOnly.use entity).bind fun _ => .pure _
    · exact .throw ⟨_, rfl⟩

/-- Only the second part can complain about the shape of an index. -/
theorem classParts_not_fails {name : String} :
    ¬ Fails (classParts ctx c) s (.unsupportedIndexShape name) := by
  have supported : FailsOnly (classParts ctx c) fun e => e ≠ .unsupportedIndexShape name := by
    refine ((findOverride_fails c.name _).mono ?_).bind fun o =>
      ((describeEntity_fromSchema ctx _ _ _ _).fails.mono ?_).bind fun doc =>
        ((schemaMembers_fails c o _).mono ?_).bind fun made =>
          (FailsOnly.get.bind fun _ => .pure _).bind fun _ => .pure _
    · rintro e ⟨found, rfl⟩
      simp
    · rintro e ⟨context, reference, rfl⟩
      simp
    · rintro e (⟨context, reference, rfl⟩ | ⟨a, _, found, _, _, rfl⟩)
      · simp
      · simp
  exact fun fails => supported s _ fails rfl

theorem classParts_quiet (ctx : Context) (c : Schema.Class) : Quiet (classParts ctx c) :=
  (findOverride_quiet ctx c.name _).bind fun o =>
    (describeEntity_free ctx _ _ _ _).quiet.bind fun _ =>
      (schemaMembers_quiet ctx c o _ _).bind fun made =>
        (appendUnclaimed_quiet c.name o made.2).bind fun _ => .pure _

theorem ne_lengthMethod (ty : Ty) : ty ≠ .reference "LuaLengthMethod" [ty] := by
  intro same
  have sameSize := congrArg sizeOf same
  simp at sameSize
  omega

/-- A length that the override does not have is built from the operator. -/
theorem SchemaMembers.hasLength {calls methods attributes lengths beyond : List Member}
    {length : Attribute}
    (made : SchemaMembers ctx c (ctx.overrides.get? c.name)
      ((ctx.overrides.get? c.name).any (·.isArrayLike)) calls methods attributes lengths)
    (isFirst : c.lengthOperator? = some length)
    (absent : memberOf? (ctx.overrides.get? c.name) lengthMember = none)
    (within : beyond.Sublist (((ctx.overrides.get? c.name).map (·.members)).getD [])) :
    HasLength ctx c length (calls ++ methods ++ attributes ++ lengths ++ beyond) := by
  have merged := made.length
  rw [isFirst, Option.toList_some] at merged
  obtain ⟨member, others, isMerged, isLast, rfl⟩ := List.forall₂_cons_left_iff.1 merged
  cases isLast
  cases isMerged with
  | overridden isThere _ _ => cases isThere.symm.trans absent
  | @built bare doc _ _ built same =>
    obtain ⟨t, built⟩ := built {}
    obtain ⟨raw, t', maps, built⟩ := runs_bind.1 built
    obtain ⟨rfl, _⟩ := runs_pure.1 built
    have isRaw := (mapType_free ctx _ length.type).makes maps
    refine ⟨raw, if (ctx.overrides.get? c.name).any (·.isArrayLike) then raw
      else .reference "LuaLengthMethod" [raw], calls ++ methods ++ attributes, doc, beyond, isRaw,
      ?_, within, ?_⟩
    · rw [same, List.append_assoc]
      rfl
    · rw [Schema.Class.arrayLike_iff]
      split
      next arrayLike => simp [arrayLike, ne_lengthMethod]
      next plain => simp [plain, (ne_lengthMethod raw).symm]

theorem runs_classParts {parts : ClassParts} (runs : Runs (classParts ctx c) s parts s') :
    parts.override = ctx.overrides.get? c.name ∧
      Makes (describeEntity ctx c.name c.description c.notes c.examples) parts.doc ∧
      ∀ length, c.lengthOperator? = some length →
        memberOf? (ctx.overrides.get? c.name) lengthMember = none →
        HasLength ctx c length parts.members := by
  obtain ⟨allows, t, _, runs⟩ := runs_findOverride_bind runs
  obtain ⟨doc, t', described, runs⟩ := runs_bind.1 runs
  obtain ⟨⟨helpers, own⟩, t'', schema, runs⟩ := runs_bind.1 runs
  obtain ⟨members, u, appended, runs⟩ := runs_bind.1 runs
  obtain ⟨rfl, rfl⟩ := runs_pure.1 runs
  obtain ⟨rfl, rfl⟩ := runs_appendUnclaimed appended
  obtain ⟨calls, methods, attributes, lengths, made, rfl, _⟩ := schemaMembers_isMerged schema
  refine ⟨rfl, (describeEntity_free ctx _ _ _ _).makes described, fun length isFirst absent => ?_⟩
  refine made.hasLength isFirst absent ?_
  cases ctx.overrides.get? c.name with
  | none => exact .slnil
  | some o => exact List.filter_sublist

/-! ## At the index -/

/-- The type of the index of a class: what its override gives, or else a read-only index signature
    for the type of its operator. -/
inductive IsIndexHalf (ctx : Context) (c : Schema.Class) : Ty → Prop where
  | given {shape : Ty} (isGiven : c.givenIndex? ctx.overrides = some shape) :
      IsIndexHalf ctx c shape
  | mapped {index : Attribute} {value : Ty} (notGiven : c.givenIndex? ctx.overrides = none)
      (isFirst : c.indexOperator? = some index)
      (maps : Makes (mapType ctx (c.name ++ ".index") index.type) value) :
      IsIndexHalf ctx c (.literal [.index "index" (.keyword .number) value true])

theorem indexType_isIndexHalf {index : Ty}
    (runs : Runs (indexType ctx c (ctx.overrides.get? c.name)) s (some index) s') :
    IsIndexHalf ctx c index := by
  rw [indexType] at runs
  split at runs
  next shape _ isGiven =>
    split at runs
    · cases (runs_pure.1 runs).1
      exact .given isGiven
    · exact (not_runs_throw runs).elim
  next operator notGiven isFirst =>
    obtain ⟨value, t, maps, runs⟩ := runs_bind.1 runs
    cases (runs_pure.1 runs).1
    exact .mapped notGiven isFirst ((mapType_free ctx _ operator.type).makes maps)
  next => cases (runs_pure.1 runs).1

/-- The shape that an override gives is all that can be wrong with an index. -/
theorem indexType_fails_iff {name : String} :
    Fails (indexType ctx c o) s (.unsupportedIndexShape name) ↔
      name = c.name ∧ ∃ shape, o.bind (·.indexShape) = some shape ∧ ¬ shape.IsIndex := by
  rw [indexType]
  split
  next shape _ isGiven =>
    simp only [isGiven, Option.some_inj, exists_eq_left', ← isIndexShape_iff]
    split
    next fits => simp [fits]
    next misfits => simp [misfits, eq_comm]
  next operator notGiven _ =>
    -- A type that is mapped fails on links alone.
    refine iff_of_false (fun fails => ?_) (by simp [notGiven])
    rcases fails_bind.1 fails with fails | ⟨_, _, _, fails⟩
    · obtain ⟨_, _, other⟩ := (mapType_fromSchema ctx _ operator.type).fails s _ fails
      cases other
    · exact not_fails_pure fails
  next notGiven _ => simp [notGiven]

/-- The class is array-like, but neither its override nor an operator has a type for its index. -/
def lacksIndex (c : Schema.Class) (o : Option Override) : Bool :=
  o.any (·.isArrayLike) && !((o.bind (·.indexShape)).isSome || c.indexOperator?.isSome)

/-- The index of an array-like class is the type for it, and any other class has none. -/
theorem runs_classIndex {index : Option Ty} (runs : Runs (classIndex ctx c o) s index s') :
    o.any (·.isArrayLike) ∧ (∃ t, Runs (indexType ctx c o) s index t) ∨
      ¬ o.any (·.isArrayLike) ∧ index = none := by
  rw [classIndex] at runs
  split at runs
  next arrayLike =>
    obtain ⟨type, t, made, runs⟩ := runs_bind.1 runs
    cases type with
    | some type =>
      obtain ⟨rfl, _⟩ := runs_pure.1 runs
      exact .inl ⟨arrayLike, t, made⟩
    | none =>
      obtain ⟨_, t', _, runs⟩ := runs_bind.1 runs
      obtain ⟨rfl, _⟩ := runs_pure.1 runs
      exact .inl ⟨arrayLike, t, made⟩
  next plain =>
    obtain ⟨rfl, _⟩ := runs_pure.1 runs
    exact .inr ⟨plain, rfl⟩

theorem classIndex_isSome {index : Option Ty} (runs : Runs (classIndex ctx c o) s index s') :
    index.isSome = c.isSplit o := by
  rw [Schema.Class.isSplit]
  obtain ⟨arrayLike, t, made⟩ | ⟨plain, rfl⟩ := runs_classIndex runs
  · rw [arrayLike, Bool.true_and, indexType_isSome made]
  · simp [plain]

theorem classIndex_isIndexHalf {index : Ty}
    (runs : Runs (classIndex ctx c (ctx.overrides.get? c.name)) s (some index) s') :
    IsIndexHalf ctx c index := by
  obtain ⟨_, t, made⟩ | ⟨_, none⟩ := runs_classIndex runs
  · exact indexType_isIndexHalf made
  · cases none

theorem classIndex_fails_iff {name : String} :
    Fails (classIndex ctx c o) s (.unsupportedIndexShape name) ↔
      name = c.name ∧ o.any (·.isArrayLike) ∧
        ∃ shape, o.bind (·.indexShape) = some shape ∧ ¬ shape.IsIndex := by
  rw [classIndex]
  split
  next arrayLike =>
    rw [arrayLike, eq_self, true_and, ← @indexType_fails_iff ctx c o s]
    -- What comes behind the type of the index cannot fail.
    rw [fails_bind]
    refine or_iff_left ?_
    rintro ⟨index, t, _, fails⟩
    cases index with
    | some index => exact not_fails_pure fails
    | none => simp at fails
  next plain => simp [plain]

/-- A missing index is noted once, on the class that lacks it. -/
theorem classIndex_noted (ctx : Context) (c : Schema.Class) (o : Option Override) (s : Session) :
    ∃ added, (outcome (classIndex ctx c o) s).2.advisories = s.advisories ++ added ∧
      added.filter Advisory.isMissingIndex =
        if lacksIndex c o then [.missingIndexShape c.name] else [] := by
  by_cases lacks : lacksIndex c o
  · rw [if_pos lacks]
    simp only [lacksIndex, Bool.and_eq_true, Bool.not_eq_true', Bool.or_eq_false_iff,
      Option.isSome_eq_false_iff, Option.isNone_iff_eq_none] at lacks
    obtain ⟨arrayLike, noShape, noOperator⟩ := lacks
    have notes : classIndex ctx c o = do note (.missingIndexShape c.name); return none := by
      rw [classIndex, if_pos arrayLike, indexType, noShape, noOperator, pure_bind]
    exact ⟨[.missingIndexShape c.name], by rw [notes]; rfl, rfl⟩
  · rw [if_neg lacks]
    -- With a type for the index, or with no need of one, the note is never reached.
    have quiet : Quiet (classIndex ctx c o) := by
      rw [classIndex]
      split
      next arrayLike =>
        refine (indexType_free ctx c o).quiet.bind_of_runs fun t index t' made => ?_
        cases index with
        | some index => exact .pure _
        | none =>
          have noIndex := indexType_isSome made
          simp [lacksIndex, arrayLike, ← noIndex] at lacks
      next => exact .pure _
    obtain ⟨added, appended, others⟩ := quiet s
    exact ⟨added, appended, List.filter_eq_nil_iff.2 others⟩

/-! ## The class -/

/-- The block ends with the interface of the members, the type of the index and the name for both,
    of which only the last is documented. -/
def EndsSplit (name : String) (members : List Member) (index : Ty) (doc : Option String)
    (block : List Declaration) : Prop :=
  ∃ front supertypes, block = front ++
    [.interface ⟨name ++ "Members", supertypes, members, none⟩,
      .alias ⟨name ++ "Index", index, none⟩,
      .alias ⟨name, .intersection [.named (name ++ "Members"), .named (name ++ "Index")], doc⟩]

/-- The block ends with the interface of the class. -/
def EndsWhole (name : String) (members : List Member) (doc : Option String)
    (block : List Declaration) : Prop :=
  ∃ front supertypes, block = front ++ [.interface ⟨name, supertypes, members, doc⟩]

/-- The block for a class is split when the class is array-like and has a type for its index. -/
structure SplitsWhenDue (ctx : Context) (c : Schema.Class) (members : List Member)
    (doc : Option String) (block : List Declaration) : Prop where
  split_iff : (∃ index, EndsSplit c.name members index doc block) ↔
    c.ArrayLike ctx.overrides ∧ c.HasIndex ctx.overrides
  whole_iff : EndsWhole c.name members doc block ↔
    ¬ (c.ArrayLike ctx.overrides ∧ c.HasIndex ctx.overrides)
  index : ∀ index, EndsSplit c.name members index doc block → IsIndexHalf ctx c index
  length : ∀ length, c.lengthOperator? = some length →
    memberOf? (ctx.overrides.get? c.name) lengthMember = none → HasLength ctx c length members

/-- The end of a block tells whether the class was split. -/
theorem endsSplit_iff {name : String} {members : List Member} {index : Ty} {doc : Option String}
    {helpers : List Declaration} {supertypes : List Ty} {type : Option Ty} :
    EndsSplit name members index doc (helpers ++ classBlock name supertypes members doc type) ↔
      type = some index := by
  constructor
  · rintro ⟨front, supertypes', same⟩
    cases type with
    | some type =>
      cases List.append_inj_right' same rfl
      rfl
    | none =>
      -- The one block ends with an interface, the other one with an alias.
      have sameLast := congrArg List.getLast? same
      simp [classBlock] at sameLast
  · rintro rfl
    exact ⟨helpers, supertypes, rfl⟩

theorem endsWhole_iff {name : String} {members : List Member} {doc : Option String}
    {helpers : List Declaration} {supertypes : List Ty} {type : Option Ty} :
    EndsWhole name members doc (helpers ++ classBlock name supertypes members doc type) ↔
      type = none := by
  constructor
  · rintro ⟨front, supertypes', same⟩
    cases type with
    | some type =>
      have sameLast := congrArg List.getLast? same
      simp [classBlock, splitClass] at sameLast
    | none => rfl
  · rintro rfl
    exact ⟨helpers, supertypes, rfl⟩

theorem isSplit_iff {store : OverrideStore} :
    c.isSplit (store.get? c.name) ↔ c.ArrayLike store ∧ c.HasIndex store := by
  rw [Schema.Class.arrayLike_iff, Schema.Class.hasIndex_iff, ← Bool.and_eq_true]
  rfl

theorem lacksIndex_iff {store : OverrideStore} :
    lacksIndex c (store.get? c.name) ↔ c.ArrayLike store ∧ ¬ c.HasIndex store := by
  rw [Schema.Class.arrayLike_iff, Schema.Class.hasIndex_iff, lacksIndex, Bool.and_eq_true,
    Bool.not_eq_true', Bool.not_eq_true]
  rfl

theorem runs_classDeclarations_parts {block : List Declaration}
    (runs : Runs (classDeclarations ctx c) s block s') :
    ∃ parts index t, Runs (classParts ctx c) s parts t ∧
      Runs (classIndex ctx c (ctx.overrides.get? c.name)) t index s' ∧
      block = parts.helpers ++ classBlock c.name
        (classSupertypes ctx c (ctx.overrides.get? c.name) c.hasTriad) parts.members parts.doc
        index := by
  rw [classDeclarations_eq] at runs
  obtain ⟨parts, t, made, runs⟩ := runs_bind.1 runs
  obtain ⟨index, t', indexed, runs⟩ := runs_bind.1 runs
  obtain ⟨rfl, rfl⟩ := runs_pure.1 runs
  rw [(runs_classParts made).1] at indexed ⊢
  exact ⟨parts, index, t, made, indexed, rfl⟩

/-- A class is split exactly when its override is array-like and there is a type for the index. -/
theorem classDeclarations_split_when_due {block : List Declaration}
    (runs : Runs (classDeclarations ctx c) s block s') :
    ∃ members doc, Makes (describeEntity ctx c.name c.description c.notes c.examples) doc ∧
      SplitsWhenDue ctx c members doc block := by
  obtain ⟨parts, type, t, made, indexed, rfl⟩ := runs_classDeclarations_parts runs
  obtain ⟨_, described, length⟩ := runs_classParts made
  have isSome := classIndex_isSome indexed
  refine ⟨parts.members, parts.doc, described, ?_, ?_, ?_, length⟩
  · simp only [endsSplit_iff, ← isSplit_iff, ← isSome, Option.isSome_iff_exists]
  · rw [endsWhole_iff, ← isSplit_iff, ← isSome, Option.not_isSome_iff_eq_none]
  · intro index ends
    rw [endsSplit_iff.1 ends] at indexed
    exact classIndex_isIndexHalf indexed

/-- A class fails on the shape of its index exactly when it comes as far as that index. -/
theorem classDeclarations_fails_iff {name : String} :
    Fails (classDeclarations ctx c) s (.unsupportedIndexShape name) ↔
      name = c.name ∧ ReachesIndex ctx c s ∧ c.ArrayLike ctx.overrides ∧
        ∃ shape, c.givenIndex? ctx.overrides = some shape ∧ ¬ shape.IsIndex := by
  rw [classDeclarations_eq, fails_bind, or_iff_right classParts_not_fails,
    Schema.Class.arrayLike_iff]
  -- Behind the index nothing fails, so that it is the index that does.
  have atIndex (parts : ClassParts) (t : Session) (index : Option Ty → List Declaration) :
      Fails (do let i ← classIndex ctx c parts.override; return index i) t
          (.unsupportedIndexShape name) ↔
        Fails (classIndex ctx c parts.override) t (.unsupportedIndexShape name) := by
    simp
  constructor
  · rintro ⟨parts, t, made, fails⟩
    rw [atIndex, (runs_classParts made).1, classIndex_fails_iff] at fails
    obtain ⟨named, arrayLike, misfits⟩ := fails
    exact ⟨named, ⟨parts, t, made⟩, arrayLike, misfits⟩
  · rintro ⟨named, ⟨parts, t, made⟩, arrayLike, misfits⟩
    refine ⟨parts, t, made, ?_⟩
    rw [atIndex, (runs_classParts made).1, classIndex_fails_iff]
    exact ⟨named, arrayLike, misfits⟩

/-- A result that is only passed on leaves the session as it is. -/
theorem outcome_bind_pure_snd {α β : Type} (step : Synth α) (f : α → β) (s : Session) :
    (outcome (step >>= fun x => pure (f x)) s).2 = (outcome step s).2 := by
  rw [← map_eq_pure_bind, outcome_map]
  rcases outcome step s with ⟨result, t⟩
  cases result <;> rfl

/-- When a class comes as far as its index, it notes that it lacks one if it does. -/
theorem classDeclarations_noted (ctx : Context) (c : Schema.Class) (s : Session) :
    ∃ added, (outcome (classDeclarations ctx c) s).2.advisories = s.advisories ++ added ∧
      (ReachesIndex ctx c s → added.filter Advisory.isMissingIndex =
        if lacksIndex c (ctx.overrides.get? c.name) then [.missingIndexShape c.name] else []) ∧
      (¬ ReachesIndex ctx c s → added.filter Advisory.isMissingIndex = []) := by
  obtain ⟨added, appended, others⟩ := classParts_quiet ctx c s
  have quiet := List.filter_eq_nil_iff.2 others
  rw [classDeclarations_eq, outcome_bind]
  rcases made : outcome (classParts ctx c) s with ⟨result, t⟩
  rw [made] at appended
  cases result with
  | error e =>
    refine ⟨added, appended, fun ⟨parts, t', reaches⟩ => ?_, fun _ => quiet⟩
    cases reaches.symm.trans made
  | ok parts =>
    have reaches : ReachesIndex ctx c s := ⟨parts, t, made⟩
    obtain ⟨added', appended', missing⟩ := classIndex_noted ctx c parts.override t
    rw [(runs_classParts made).1] at appended' missing
    refine ⟨added ++ added', ?_, fun _ => ?_, fun stops => (stops reaches).elim⟩
    · dsimp only
      rw [outcome_bind_pure_snd, (runs_classParts made).1, appended', appended, List.append_assoc]
    · rw [List.filter_append, quiet, List.nil_append, missing]

/-- What becomes of the index of a class. -/
theorem classDeclarations_splits (ctx : Context) (c : Schema.Class) (s : Session) :
    (∀ block s', Runs (classDeclarations ctx c) s block s' →
      ∃ members doc, Makes (describeEntity ctx c.name c.description c.notes c.examples) doc ∧
        SplitsWhenDue ctx c members doc block) ∧
    (∀ name, Fails (classDeclarations ctx c) s (.unsupportedIndexShape name) ↔
      name = c.name ∧ ReachesIndex ctx c s ∧ c.ArrayLike ctx.overrides ∧
        ∃ shape, c.givenIndex? ctx.overrides = some shape ∧ ¬ shape.IsIndex) ∧
    ∃ added, (outcome (classDeclarations ctx c) s).2.advisories = s.advisories ++ added ∧
      (.missingIndexShape c.name ∈ added ↔
        ReachesIndex ctx c s ∧ c.ArrayLike ctx.overrides ∧ ¬ c.HasIndex ctx.overrides) := by
  refine ⟨fun block s' runs => classDeclarations_split_when_due runs,
    fun name => classDeclarations_fails_iff, ?_⟩
  obtain ⟨added, appended, reached, stopped⟩ := classDeclarations_noted ctx c s
  refine ⟨added, appended, ?_⟩
  rw [← Advisory.mem_filter_isMissingIndex, ← lacksIndex_iff]
  by_cases reaches : ReachesIndex ctx c s
  · rw [reached reaches]
    split
    next lacks => simp [reaches, lacks]
    next has => simp [has]
  · simp [stopped reaches, reaches]

end Synth

def slotsClass : Schema.Class where
  name := "LuaSlots"
  order := 0
  description := "Slots."
  operators :=
    [.index (.readOnly "index" 0 (.named "Item")), .length (.readOnly "length" 1 (.named "uint"))]

def slotsStore (supertype : Ty) : OverrideStore :=
  .ofDistinct
    [{ kind := .structural
       declaration := .interface { name := "LuaSlots", supertypes := [supertype] }
       doc := none
       indexShape := none }]
    (by simp) .inline

def slotsDocument : Schema.Document where
  application := "factorio"
  stage := "runtime"
  apiVersion := 3
  classes := [slotsClass]

def slotsContext : Context :=
  .of slotsDocument (slotsStore (.reference "ReadonlyArray" [.named "Item"])) {}

theorem slots_split :
    ∃ block s' members doc index,
      Synth.Runs (Synth.classDeclarations slotsContext slotsClass) {} block s' ∧
      Synth.SplitsWhenDue slotsContext slotsClass members doc block ∧
      Synth.EndsSplit "LuaSlots" members index doc block := by
  obtain ⟨block, s', runs⟩ := Synth.exists_runs_of_isOk
    (show (Synth.outcome (Synth.classDeclarations slotsContext slotsClass) {}).1.isOk by
      decide +kernel)
  obtain ⟨members, doc, _, splits⟩ :=
    (Synth.classDeclarations_splits slotsContext slotsClass {}).1 block s' runs
  have arrayLike : slotsClass.ArrayLike slotsContext.overrides :=
    ⟨_, .named "Item", rfl, .inl List.mem_cons_self⟩
  have hasIndex : slotsClass.HasIndex slotsContext.overrides := .inr ⟨_, List.mem_cons_self⟩
  obtain ⟨index, ends⟩ := splits.split_iff.2 ⟨arrayLike, hasIndex⟩
  exact ⟨block, s', members, doc, index, runs, splits, ends⟩

end Typings

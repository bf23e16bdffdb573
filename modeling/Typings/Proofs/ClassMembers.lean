import Typings.Proofs.Outline
import Typings.Proofs.SessionFree

/-! # Members of classes

The interface of a class is put together from the schema and from the override of the class. This
module says which supertypes and which members it has, in which order, and where each member comes
from.

* `Synth.IsMerged`: the first member of the name that the override has, or else one made from the
  schema.
* `Synth.HasClassMembers`: the members of the interface of a class.
* `Synth.classDeclarations_merges`: the interface of a class.
-/

namespace Typings

open Schema (Attribute Method)

/-! ## Documentation of merged members -/

theorem Member.withDoc_doc? (member : Member) : member.withDoc member.doc? = member := by
  cases member <;> rfl

namespace Synth

/-- A merged member keeps its own documentation and has that of the schema if it has none. -/
theorem withDefaultDoc_eq (doc : Option String) (found : Member) :
    withDefaultDoc doc found = found.withDoc (found.doc?.or doc) := by
  rw [withDefaultDoc]
  cases isThere : found.doc? with
  | none => simp
  | some own =>
    rw [Option.isSome_some, if_pos rfl, Option.some_or, ← isThere, Member.withDoc_doc?]

/-! ## Where a member comes from -/

/-- The member is the first one of the name that the override has. If there is none, it is built
    from the schema. The documentation of the schema is for both, but the override may have its
    own. -/
inductive IsMerged (o : Option Override) (name : String) (document : Synth (Option String))
    (build : Synth Member) (member : Member) : Prop where
  | overridden {found : Member} {doc : Option String} (isFirst : memberOf? o name = some found)
      (documented : Makes document doc) (same : member = found.withDoc (found.doc?.or doc))
  | built {bare : Member} {doc : Option String} (absent : memberOf? o name = none)
      (documented : Makes document doc) (made : Makes build bare) (same : member = bare.withDoc doc)

section Steps

variable {ctx : Context} {entity name : String} {o : Option Override} {shape : MemberShape}
  {doc : Option String} {s s' : Session}

/-- A claim that does not fail gives the member of the override, or there is none. -/
theorem claimMember_cases {claimed : Option Member}
    (runs : Runs (claimMember entity o name shape doc) s claimed s') :
    (∃ found, memberOf? o name = some found ∧ claimed = some (withDefaultDoc doc found)) ∨
      memberOf? o name = none ∧ claimed = none := by
  rw [claimMember] at runs
  split at runs
  next absent =>
    obtain ⟨rfl, _⟩ := runs_pure.1 runs
    exact .inr ⟨absent, rfl⟩
  next found isFirst =>
    -- A member of another shape is not claimed.
    split at runs
    · obtain ⟨_, t, _, runs⟩ := runs_bind.1 runs
      obtain ⟨rfl, _⟩ := runs_pure.1 runs
      exact .inl ⟨found, isFirst, rfl⟩
    · exact (not_runs_throw runs).elim

/-- The member is the found one with a documentation, or the one that is built from the schema. -/
theorem mergeMember_isMerged {document : Synth (Option String)} {build : Synth Member}
    {member : Member} (documented : Makes document doc) (free : SessionFree build)
    (runs : Runs (mergeMember entity o name shape doc build) s member s') :
    IsMerged o name document build member := by
  obtain ⟨claimed, t, claims, runs⟩ := runs_bind.1 runs
  obtain ⟨found, isFirst, rfl⟩ | ⟨absent, rfl⟩ := claimMember_cases claims
  · obtain ⟨rfl, _⟩ := runs_pure.1 runs
    exact .overridden isFirst documented (withDefaultDoc_eq doc found)
  · obtain ⟨bare, t', made, runs⟩ := runs_bind.1 runs
    obtain ⟨rfl, _⟩ := runs_pure.1 runs
    exact .built absent documented (free.makes made) rfl

variable (ctx entity)

/-- The member that the schema has for a method, without its documentation. -/
def bareMethod (method : Method) : Synth Member :=
  (fun made => .method method.name made.2.1 made.2.2 none) <$> signature ctx entity method

def attributeDoc (attr : Attribute) : Synth (Option String) :=
  documentation ctx (entity ++ "." ++ attr.name)
    { description := attr.description, notes := attr.notes, examples := attr.examples }

variable {ctx entity}

/-- A method is merged with its documentation in place, whether the member is found or made. -/
theorem mergeMethod_isMerged {method : Method} {made : List Declaration × Member}
    (runs : Runs (mergeMethod ctx entity o method) s made s') :
    IsMerged o method.name (methodDoc ctx (entity ++ "." ++ method.name) method)
      (bareMethod ctx entity method) made.2 := by
  obtain ⟨doc, t, documents, runs⟩ := runs_bind.1 runs
  have documented := (methodDoc_free ctx _ method).makes documents
  obtain ⟨claimed, t', claims, runs⟩ := runs_bind.1 runs
  obtain ⟨found, isFirst, rfl⟩ | ⟨absent, rfl⟩ := claimMember_cases claims
  · obtain ⟨rfl, _⟩ := runs_pure.1 runs
    exact .overridden isFirst documented (withDefaultDoc_eq doc found)
  · obtain ⟨⟨decls, params, ret⟩, t'', signed, runs⟩ := runs_bind.1 runs
    obtain ⟨rfl, _⟩ := runs_pure.1 runs
    -- The declarations that come with the signature are not part of the member.
    have bare : Runs (bareMethod ctx entity method) t' (.method method.name params ret none) t'' :=
      runs_map.2 ⟨_, signed, rfl⟩
    exact .built absent documented (((signature_free ctx entity method).map _).makes bare) rfl

theorem mergeAttribute_isMerged {attr : Attribute} {member : Member}
    (runs : Runs (mergeAttribute ctx entity o attr) s member s') :
    IsMerged o attr.name (attributeDoc ctx entity attr) (synthesizeAttribute ctx entity attr)
      member := by
  obtain ⟨doc, t, documents, runs⟩ := runs_bind.1 runs
  exact mergeMember_isMerged ((documentation_free ctx _ _).makes documents)
    (synthesizeAttribute_free ctx entity attr) runs

theorem mergeLength_isMerged {length : Attribute} {arrayLike : Bool} {member : Member}
    (runs : Runs (mergeLength ctx entity o length arrayLike) s member s') :
    IsMerged o lengthMember (describe ctx (entity ++ ".operator #") length.description)
      (synthesizeLength ctx (entity ++ ".operator #") length arrayLike) member := by
  obtain ⟨doc, t, documents, runs⟩ := runs_bind.1 runs
  exact mergeMember_isMerged ((describe_free ctx _ _).makes documents)
    (synthesizeLength_free ctx _ length arrayLike) runs

/-- The member is the call signature for the operator. -/
def IsCallSignature (ctx : Context) (entity : String) (call : Method) (member : Member) : Prop :=
  ∃ decls params ret doc, Makes (methodDoc ctx (entity ++ ".operator ()") call) doc ∧
    Makes (signature ctx entity call) (decls, params, ret) ∧ member = .call params ret doc

theorem callMember_isCallSignature {call : Method} {made : List Declaration × Member}
    (runs : Runs (callMember ctx entity call) s made s') :
    IsCallSignature ctx entity call made.2 := by
  obtain ⟨doc, t, documents, runs⟩ := runs_bind.1 runs
  obtain ⟨⟨decls, params, ret⟩, t', signed, runs⟩ := runs_bind.1 runs
  obtain ⟨rfl, _⟩ := runs_pure.1 runs
  exact ⟨decls, params, ret, doc, (methodDoc_free ctx _ call).makes documents,
    (signature_free ctx entity call).makes signed, rfl⟩

end Steps

/-! ## Members of the override alone -/

/-- The members of the override that have no name, or none of the names. -/
def membersBeyond (o : Option Override) (names : List String) : List Member :=
  ((o.map (·.members)).getD []).filter fun member =>
    member.name?.all fun name => !names.contains name

/-- When a class has claimed what it asks for and nothing else was claimed in its name, the members
    that are left are those of other names. -/
theorem unclaimedMembers_eq_membersBeyond {entity : String} {o : Option Override}
    {asked : List AskedMember} {s : Session}
    (used : ∀ name, (entity, name) ∈ s.usedMembers ↔
      (entity, name) ∈ asked.flatMap (·.claims entity o)) :
    unclaimedMembers entity o s = membersBeyond o (asked.map AskedMember.name) := by
  cases o with
  | none => rfl
  | some o =>
    refine List.filter_congr fun member isMember => ?_
    cases isNamed : member.name? with
    | none => rfl
    | some name =>
      -- The override has a member of this name, so the name is claimed as soon as it is asked for.
      have isThere : (memberOf? (some o) name).isSome :=
        List.find?_isSome.2 ⟨member, isMember, by simp [isNamed]⟩
      have isUsed : s.hasUsedMember entity name ↔ name ∈ asked.map AskedMember.name := by
        rw [Session.hasUsedMember, List.contains_iff_mem, used, List.mem_flatMap, List.mem_map]
        simp only [AskedMember.mem_claims, Prod.mk.injEq, true_and]
        constructor
        · rintro ⟨a, isAsked, rfl, _⟩
          exact ⟨a, isAsked, rfl⟩
        · rintro ⟨a, isAsked, rfl⟩
          exact ⟨a, isAsked, rfl, isThere⟩
      have same : s.hasUsedMember entity name = (asked.map AskedMember.name).contains name := by
        rw [Bool.eq_iff_iff, isUsed, List.contains_iff_mem]
      simp only [Option.all_some, same]

/-! ## The interface of a class -/

/-- The members that a class has from the schema, kind by kind. -/
structure SchemaMembers (ctx : Context) (c : Schema.Class) (o : Option Override) (arrayLike : Bool)
    (calls methods attributes length : List Member) : Prop where
  calls : List.Forall₂ (IsCallSignature ctx c.name) c.callOperator?.toList calls
  methods : List.Forall₂
    (fun m => IsMerged o m.name (methodDoc ctx (c.name ++ "." ++ m.name) m)
      (bareMethod ctx c.name m))
    ((Schema.inOrder c.methods).filter fun m => c.keeps m.name) methods
  attributes : List.Forall₂
    (fun a => IsMerged o a.name (attributeDoc ctx c.name a) (synthesizeAttribute ctx c.name a))
    ((Schema.inOrder c.attributes).filter fun a => c.keeps a.name) attributes
  length : List.Forall₂
    (fun l => IsMerged o lengthMember (describe ctx (c.name ++ ".operator #") l.description)
      (synthesizeLength ctx (c.name ++ ".operator #") l arrayLike))
    c.lengthOperator?.toList length

/-- The members are those from the schema, the call signature first, and behind them those that only
    the override has. -/
def HasClassMembers (ctx : Context) (c : Schema.Class) (o : Option Override)
    (members : List Member) : Prop :=
  ∃ calls methods attributes length,
    SchemaMembers ctx c o (o.any (·.isArrayLike)) calls methods attributes length ∧
      members = calls ++ methods ++ attributes ++ length
        ++ membersBeyond o ((calls ++ methods ++ attributes ++ length).filterMap Member.name?)

section Class

variable {ctx : Context} {c : Schema.Class} {o : Option Override} {s s' : Session}

theorem filterMap_name?_calls {entity : String} {calls : List Method} {members : List Member}
    (signed : List.Forall₂ (IsCallSignature ctx entity) calls members) :
    members.filterMap Member.name? = [] := by
  induction signed with
  | nil => rfl
  | cons here _ ih =>
    obtain ⟨_, params, ret, doc, _, _, rfl⟩ := here
    exact ih

theorem filterMap_name?_answers {asked : List AskedMember} {members : List Member}
    (answers : List.Forall₂ (Answers o) asked members) :
    members.filterMap Member.name? = asked.map AskedMember.name := by
  induction answers with
  | nil => rfl
  | cons here _ ih => rw [List.filterMap_cons_some here.name?_eq, List.map_cons, ih]

/-- The members from the schema come kind by kind, and their names are the asked ones. -/
theorem schemaMembers_isMerged {arrayLike : Bool} {decls : List Declaration} {own : List Member}
    (runs : Runs (schemaMembers ctx c o c.hasTriad arrayLike) s (decls, own) s') :
    ∃ calls methods attributes length,
      SchemaMembers ctx c o arrayLike calls methods attributes length ∧
        own = calls ++ methods ++ attributes ++ length ∧
        own.filterMap Member.name? = c.asked.map AskedMember.name := by
  obtain ⟨calls, t₁, callsMade, runs⟩ := runs_bind.1 runs
  obtain ⟨methods, t₂, methodsMade, runs⟩ := runs_bind.1 runs
  obtain ⟨attributes, t₃, attributesMade, runs⟩ := runs_bind.1 runs
  obtain ⟨length, t₄, lengthMade, runs⟩ := runs_bind.1 runs
  obtain ⟨same, _⟩ := runs_pure.1 runs
  cases same
  have made : SchemaMembers ctx c o arrayLike (calls.map (·.2)) (methods.map (·.2)) attributes
      length :=
    { calls := List.forall₂_map_right_iff.2
        (callsMade.forall₂.imp fun _ _ ⟨_, _, made⟩ => callMember_isCallSignature made)
      methods := List.forall₂_map_right_iff.2
        (methodsMade.forall₂.imp fun _ _ ⟨_, _, made⟩ => mergeMethod_isMerged made)
      attributes :=
        attributesMade.forall₂.imp fun _ _ ⟨_, _, made⟩ => mergeAttribute_isMerged made
      length := lengthMade.forall₂.imp fun _ _ ⟨_, _, made⟩ => mergeLength_isMerged made }
  refine ⟨_, _, _, _, made, by rw [List.map_append], ?_⟩
  have methodAnswers := (mergeMethods_merges ctx c o).answers _ _ _ methodsMade
  have attributeAnswers := (mergeAttributes_merges ctx c o).answers _ _ _ attributesMade
  have lengthAnswers := (mergeLengths_merges ctx c o arrayLike).answers _ _ _ lengthMade
  rw [List.map_id] at attributeAnswers lengthAnswers
  -- Call signatures have no names; what else there is answers to what the class asks for.
  have answers := filterMap_name?_answers
    (List.rel_append (List.rel_append methodAnswers attributeAnswers) lengthAnswers)
  rw [List.map_append, List.append_assoc, List.append_assoc, List.filterMap_append,
    filterMap_name?_calls made.calls, List.nil_append, ← List.append_assoc]
  exact answers

/-- When no member of a class is claimed before its turn, its interface has the base classes, the
    marker interface and the other supertypes of its override, and the members of the schema and of
    the override. It bears the name of the class, or stands in front of the two aliases of a class
    that is split. -/
theorem classDeclarations_merges {block : List Declaration}
    (fresh : ∀ name, (c.name, name) ∉ s.usedMembers)
    (runs : Runs (classDeclarations ctx c) s block s') :
    ∃ front iface back, block = front ++ .interface iface :: back ∧
      (iface.name = c.name ∧ back = [] ∨
        iface.name = c.name ++ "Members" ∧ ∃ index doc,
          back = [.alias ⟨c.name ++ "Index", index, none⟩,
            .alias ⟨c.name,
              .intersection [.named (c.name ++ "Members"), .named (c.name ++ "Index")], doc⟩]) ∧
      iface.supertypes =
        c.baseClasses.map .named
          ++ (if c.hasTriad then [.named ctx.config.markerSupertype] else [])
          ++ (((ctx.overrides.get? c.name).map (·.supertypes)).getD []).filter
              (fun ty => !ty.isArraySupertype) ∧
      HasClassMembers ctx c (ctx.overrides.get? c.name) iface.members := by
  have allows := (runs_findOverride_bind runs).1
  have used := ((classDeclarations_settles ctx c).uses _ _ _ runs).2
  obtain ⟨_, doc, decls, own, index, t, t', t'', rfl, _, schema, _, _, rfl⟩ :=
    runs_classDeclarations runs
  rw [OverrideStore.structural?_eq_get? allows] at schema
  obtain ⟨calls, methods, attributes, length, made, rfl, names⟩ := schemaMembers_isMerged schema
  -- What is claimed in the name of the class at its end was claimed by the class itself.
  have own (name : String) : (c.name, name) ∈ s'.usedMembers ↔
      (c.name, name) ∈ c.asked.flatMap (·.claims c.name (ctx.overrides.get? c.name)) := by
    rw [used, claimed, OverrideStore.structural?_eq_get? allows]
    simp [fresh name]
  rw [OverrideStore.structural?_eq_get? allows, unclaimedMembers_eq_membersBeyond own, ← names]
  have members : HasClassMembers ctx c (ctx.overrides.get? c.name) _ :=
    ⟨calls, methods, attributes, length, made, rfl⟩
  cases index with
  | some index => exact ⟨decls, _, _, rfl, .inr ⟨rfl, index, doc, rfl⟩, rfl, members⟩
  | none => exact ⟨decls, _, _, rfl, .inl ⟨rfl, rfl⟩, rfl, members⟩

end Class

end Synth

/-- A class with the members that every object has, and with two members of the name `length`. -/
def beltClass : Schema.Class where
  name := "LuaBelt"
  order := 0
  baseClasses := ["LuaControl"]
  methods := [{ name := "help", order := 1 }, { name := "clear", order := 0 }]
  attributes :=
    [.readOnly "valid" 0 (.named "boolean"), .readOnly "object_name" 1 (.named "string"),
      .readOnly "length" 2 (.named "uint")]
  operators := [.length (.readOnly "length" 0 (.named "uint"))]

def beltOverride : Override where
  kind := .structural
  declaration :=
    .interface
      { name := "LuaBelt"
        supertypes := [.reference "ReadonlyArray" [.named "Item"], .named "Iterable"]
        members :=
          [.method "help" [] none none, .method "clear" [] (some .any) none,
            .method "clear" [] none none, .index "key" (.keyword .string) .any false] }
  doc := none
  indexShape := none

def beltContext : Context :=
  .of
    { application := "factorio", stage := "runtime", apiVersion := 3, classes := [beltClass] }
    (.ofDistinct [beltOverride] (by simp) .inline) {}

theorem beltClass_merged :
    ∃ block s' front iface back,
      Synth.Runs (Synth.classDeclarations beltContext beltClass) {} block s' ∧
      block = front ++ .interface iface :: back ∧
      iface.supertypes = [.named "LuaControl", .named "LuaObjectBase", .named "Iterable"] ∧
      Synth.HasClassMembers beltContext beltClass (some beltOverride) iface.members := by
  obtain ⟨block, s', runs⟩ := Synth.exists_runs_of_isOk
    (show (Synth.outcome (Synth.classDeclarations beltContext beltClass) {}).1.isOk by
      decide +kernel)
  obtain ⟨front, iface, back, same, _, supertypes, members⟩ :=
    Synth.classDeclarations_merges (by simp) runs
  refine ⟨block, s', front, iface, back, runs, same, ?_, members⟩
  rw [supertypes]
  rfl

end Typings

import Typings.Synthesis.TypeMapping

/-! # Merging with overrides

A member of an override is used in place of the synthesized member of its name, if it has the shape
that the schema asks for. What the override has beyond that is appended.

* `findOverride`: the override of an entity, if its kind is allowed.
* `claimMember`, `mergeMember`: the member of an override, or else the synthesized one.
* `mergeAttribute`, `mergeParameters`: the members for attributes and parameters.
* `unclaimedMembers`: the members of an override that no schema member asked for.
-/

namespace Typings.Synth

open Schema (Attribute Parameter)

/-! ## Overrides of entities -/

/-- The override of an entity, which is used from now on. An override of another kind than those
    allowed is an error. -/
def findOverride (ctx : Context) (entity : String) (allowed : List OverrideKind) :
    Synth (Option Override) :=
  match ctx.overrides.get? entity with
  | none => return none
  | some o =>
    if allowed.contains o.kind then do
      use entity
      return some o
    else throw (.overrideKindMismatch entity (.oneOf allowed) o.declaration.kind)

/-- An override used as it is. The documentation of the schema comes before its own. -/
def verbatim (o : Override) (doc : Option String) : Declaration :=
  o.declaration.withDoc (doc.or o.doc)

/-! ## Members -/

/-- The member with a documentation, unless it has one. -/
def withDefaultDoc (doc : Option String) (member : Member) : Member :=
  if member.doc?.isSome then member else member.withDoc doc

/-- The member of the name that the override has, which is used from now on. A member of another
    shape than the expected one is an error. -/
def claimMember (entity : String) (o : Option Override) (name : String) (expected : MemberShape)
    (doc : Option String) : Synth (Option Member) :=
  match o.bind (·.member? name) with
  | none => return none
  | some member =>
    if member.shape = expected then do
      useMember entity name
      return some (withDefaultDoc doc member)
    else throw (.memberShapeMismatch entity name expected member.shape)

/-- The member of the override, or else the synthesized one. -/
def mergeMember (entity : String) (o : Option Override) (name : String) (expected : MemberShape)
    (doc : Option String) (synthesize : Synth Member) : Synth Member := do
  match ← claimMember entity o name expected doc with
  | some member => return member
  | none => return (← synthesize).withDoc doc

/-- The members of the override that were not used for the entity. -/
def unclaimedMembers (entity : String) (o : Option Override) (session : Session) : List Member :=
  match o with
  | none => []
  | some o =>
    o.members.filter fun member =>
      match member.name? with
      | some name => !session.hasUsedMember entity name
      | none => true

/-- The members with those of the override that were not used. -/
def appendUnclaimed (entity : String) (o : Option Override) (members : List Member) :
    Synth (List Member) := do
  return members ++ unclaimedMembers entity o (← get)

/-! ## Attributes -/

/-- The shape of the member for an attribute: one that can only be written is a setter. -/
def attributeShape (attr : Attribute) : MemberShape :=
  if attr.isWriteOnly then .setter else .property

/-- The type of an attribute or a return value, which may be missing. -/
def widened (optional : Bool) (ty : Ty) : Ty :=
  if optional then ty.orUndefined else ty

def synthesizeAttribute (ctx : Context) (entity : String) (attr : Attribute) : Synth Member := do
  let ty ← mapType ctx (entity ++ "." ++ attr.name) attr.type
  let ty := widened attr.optional ty
  if attr.isWriteOnly then return .setter attr.name (.plain "value" ty) none
  else return .property attr.name ty false (!attr.write) none

def mergeAttribute (ctx : Context) (entity : String) (o : Option Override) (attr : Attribute) :
    Synth Member := do
  let doc ←
    documentation ctx (entity ++ "." ++ attr.name)
      { description := attr.description, notes := attr.notes, examples := attr.examples }
  mergeMember entity o attr.name (attributeShape attr) doc (synthesizeAttribute ctx entity attr)

/-! ## Parameters -/

def synthesizeParameter (ctx : Context) (entity : String) (parameter : Parameter) :
    Synth Member := do
  let ty ← mapType ctx (entity ++ "." ++ parameter.name) parameter.type
  return .property parameter.name ty parameter.optional false none

def mergeParameter (ctx : Context) (entity : String) (o : Option Override)
    (parameter : Parameter) : Synth Member := do
  let doc ← describe ctx (entity ++ "." ++ parameter.name) parameter.description
  mergeMember entity o parameter.name .property doc (synthesizeParameter ctx entity parameter)

def mergeParameters (ctx : Context) (entity : String) (o : Option Override)
    (parameters : List Parameter) : Synth (List Member) :=
  each (mergeParameter ctx entity o) (Schema.inOrder parameters)

def mergedInterface (name : String) (o : Option Override) (members : List Member)
    (doc : Option String) : Declaration :=
  .interface ⟨name, (o.map (·.supertypes)).getD [], members, doc⟩

end Typings.Synth

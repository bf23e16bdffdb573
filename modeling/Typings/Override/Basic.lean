import Typings.Declaration.Json

/-! # Overrides

Hand-written declarations that are used in place of synthesized ones, or merged with them.

* `OverrideEntry`: an override as a file holds it.
* `Override`: an entry that can be used. Its documentation is kept apart from the declaration:
  merged declarations are documented by the schema.
* `Override.ofEntry`: constants cannot be overridden, and only an interface can give the shape of
  its index.
-/

namespace Typings

open Json (Decoder Record optionalEntry)

/-- An override as a file holds it. -/
structure OverrideEntry where
  declaration : Declaration
  /-- The type by which an array-like class is indexed. -/
  indexShape : Option Ty := none

namespace OverrideEntry

def name (entry : OverrideEntry) : String :=
  entry.declaration.name

def toJson (entry : OverrideEntry) : Json :=
  .object (.field "declaration" entry.declaration.toJson
    :: optionalEntry "index_shape" (entry.indexShape.map Ty.toJson))

def decoder : Decoder OverrideEntry :=
  Record.decoder
    (OverrideEntry.mk <$> .required "declaration" Declaration.decoder
      <*> .optional "index_shape" none (.nullable Ty.decoder))
    "struct OverrideEntry"

end OverrideEntry

inductive OverrideKind where
  /-- An interface. -/
  | structural
  /-- An alias. -/
  | alias
  /-- A namespace or an enumeration. -/
  | nameSpace
  deriving DecidableEq, Repr

def OverrideKind.label : OverrideKind → String
  | .structural => "structural type"
  | .alias => "type alias"
  | .nameSpace => "namespace or enumeration"

/-- The kind of override that a declaration makes; a constant makes none. -/
def Declaration.overrideKind? : Declaration → Option OverrideKind
  | .interface _ => some .structural
  | .alias _ => some .alias
  | .nameSpace _ _ _ => some .nameSpace
  | .enumeration _ => some .nameSpace
  | .const _ => none

inductive OverrideError where
  | constant (name : String)
  | strayIndexShape (name : String) (kind : OverrideKind)
  | duplicate (name : String)
  deriving DecidableEq, Repr

def OverrideError.message : OverrideError → String
  | .constant name =>
    "invalid override `" ++ name ++ "`: const declarations cannot be overridden"
  | .strayIndexShape name kind =>
    "invalid override `" ++ name ++ "`: index_shape given on a " ++ kind.label
  | .duplicate name => "duplicate override `" ++ name ++ "`"

structure Override where
  kind : OverrideKind
  /-- The declaration without its documentation. -/
  declaration : Declaration
  doc : Option String
  indexShape : Option Ty

namespace Override

def ofEntry (entry : OverrideEntry) : Except OverrideError Override :=
  match entry.declaration.overrideKind? with
  | none => .error (.constant entry.name)
  | some kind =>
    if entry.indexShape.isSome ∧ kind ≠ .structural then
      .error (.strayIndexShape entry.name kind)
    else
      .ok ⟨kind, entry.declaration.withDoc none, entry.declaration.doc?, entry.indexShape⟩

def name (o : Override) : String :=
  o.declaration.name

def members (o : Override) : List Member :=
  o.declaration.members

def supertypes (o : Override) : List Ty :=
  o.declaration.supertypes

def member? (o : Override) (name : String) : Option Member :=
  Member.find? o.members name

/-- The declaration with its own documentation. -/
def documented (o : Override) : Declaration :=
  o.declaration.withDoc o.doc

end Override

end Typings

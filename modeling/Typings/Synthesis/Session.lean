import Typings.Advisory
import Typings.Config
import Typings.Override.Store
import Typings.Schema.Order
import Typings.Schema.Validation

/-! # Runs

What a run of the synthesis works with, and what it keeps track of.

* `Context`: the document, the overrides and the settings.
* `Session`: the overrides and members that were used, and the advisories so far.
* `SynthesisError`: why a run fails.
* `Synth`: the steps of a run. What a step noted stays noted when it fails.
-/

namespace Typings

open Schema (ValidationError)

/-! ## Context -/

/-- What a run reads. -/
structure Context where
  document : Schema.Document
  overrides : OverrideStore
  config : Config
  /-- The qualified names in the tree of constants. -/
  definePaths : List String

namespace Context

def of (document : Schema.Document) (overrides : OverrideStore) (config : Config) : Context :=
  ⟨document, overrides, config, document.definePaths config.constantsRoot⟩

def isBuiltin (ctx : Context) (name : String) : Bool :=
  ctx.document.builtinTypes.any (·.name == name)

def isClass (ctx : Context) (name : String) : Bool :=
  ctx.document.classes.any (·.name == name)

def isEvent (ctx : Context) (name : String) : Bool :=
  ctx.document.events.any (·.name == name)

def isConcept (ctx : Context) (name : String) : Bool :=
  ctx.document.concepts.any (·.name == name)

def isGlobal (ctx : Context) (name : String) : Bool :=
  ctx.document.globalObjects.any (·.name == name)

/-- Whether the name is that of a node or a value in the tree of constants. -/
def isDefine (ctx : Context) (path : String) : Bool :=
  ctx.definePaths.contains path

end Context

/-! ## Errors -/

/-- What an override is expected to be. -/
inductive Expected where
  | oneOf (kinds : List OverrideKind)
  | declaration (kind : DeclarationKind)
  deriving DecidableEq, Repr

def Expected.label : Expected → String
  | .oneOf kinds => " or ".intercalate (kinds.map OverrideKind.label)
  | .declaration kind => kind.label

inductive SynthesisError where
  | invalidSchema (error : ValidationError)
  | overrideKindMismatch (entity : String) (expected : Expected) (found : DeclarationKind)
  | memberShapeMismatch (entity member : String) (expected found : MemberShape)
  | unsupportedIndexShape (className : String)
  | unknownOperatorSuffix (context reference : String)
  deriving DecidableEq, Repr

def SynthesisError.message : SynthesisError → String
  | .invalidSchema error => "invalid schema document: " ++ error.message
  | .overrideKindMismatch entity expected found =>
    entity ++ ": manual override is a " ++ found.label ++ ", expected a " ++ expected.label
  | .memberShapeMismatch entity member expected found =>
    entity ++ "." ++ member ++ ": manual override member is a " ++ found.label
      ++ ", expected a " ++ expected.label
  | .unsupportedIndexShape className =>
    className ++ ": unsupported index shape on manual override"
  | .unknownOperatorSuffix context reference =>
    context ++ ": unknown operator suffix in link `" ++ reference ++ "`"

/-! ## Sessions -/

/-- What a run keeps track of. -/
structure Session where
  /-- The names of the overrides that were used. -/
  usedOverrides : List String := []
  /-- The members of overrides that were used, with the entities they were used for. -/
  usedMembers : List (String × String) := []
  advisories : List Advisory := []

namespace Session

def hasUsed (session : Session) (entity : String) : Bool :=
  session.usedOverrides.contains entity

def hasUsedMember (session : Session) (entity member : String) : Bool :=
  session.usedMembers.contains (entity, member)

def use (session : Session) (entity : String) : Session :=
  { session with usedOverrides := entity :: session.usedOverrides }

/-- The session in which the member was used for the entity. -/
def useMember (session : Session) (entity member : String) : Session :=
  { session with usedMembers := (entity, member) :: session.usedMembers }

def note (session : Session) (advisory : Advisory) : Session :=
  { session with advisories := session.advisories ++ [advisory] }

end Session

/-- A step of a run. -/
abbrev Synth (α : Type) := ExceptT SynthesisError (StateM Session) α

namespace Synth

def note (advisory : Advisory) : Synth Unit :=
  modify (·.note advisory)

def use (entity : String) : Synth Unit :=
  modify (·.use entity)

def useMember (entity member : String) : Synth Unit :=
  modify (·.useMember entity member)

/-- The results of the steps, taken one after the other. -/
def all {α : Type} : List (Synth α) → Synth (List α)
  | [] => return []
  | step :: steps => do
    let x ← step
    let xs ← all steps
    return x :: xs

/-- The results of a step for each element of a list, one after the other. -/
def each {α β : Type} (step : α → Synth β) (xs : List α) : Synth (List β) :=
  all (xs.map step)

end Synth

/-- Something with its place in a list. -/
structure Placed (α : Type) where
  order : Nat
  value : α

instance {α : Type} : Schema.Ordered (Placed α) := ⟨Placed.order⟩

/-- The results of the steps, taken in the order of their places. -/
def Synth.inOrder {α : Type} (steps : List (Placed (Synth α))) : Synth (List α) :=
  Synth.all ((Schema.inOrder steps).map Placed.value)

end Typings

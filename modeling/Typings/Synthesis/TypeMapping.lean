import Typings.Synthesis.Reference

/-! # Types of the schema as declared types

* A name becomes a reference, an array an array, a variant a union of its options.
* A dictionary becomes a record if its keys can index one, and otherwise a table, with an advisory.
* A function takes its parameters in order and returns nothing.
* A table becomes a structural type with a property for each parameter.
-/

namespace Typings.Synth

open Schema (TypeExpr Parameter TableShape)

/-- Whether a dictionary with such keys is a record. -/
def isIndexable (ctx : Context) (key : TypeExpr) : Bool :=
  match key.name? with
  | some name =>
    name == "string" || name == "number" || ctx.config.isNumeric name || ctx.isDefine name
  | none => false

def dictionaryType (ctx : Context) (context : String) (key : TypeExpr) (keyType valueType : Ty) :
    Synth Ty :=
  if isIndexable ctx key then return .reference "Record" [keyType, valueType]
  else do
    note (.nonIndexableKey context key.text)
    return .reference "LuaTable" [keyType, valueType]

mutual

def mapType (ctx : Context) (context : String) : TypeExpr → Synth Ty
  | .named name => return .named name
  | .array value => return .array (← mapType ctx context value)
  | .dictionary key value => do
    let keyType ← mapType ctx context key
    let valueType ← mapType ctx context value
    dictionaryType ctx context key keyType valueType
  | .variant options => return .unionOf (← mapTypes ctx context options)
  | .function parameters => return .function (← mapArguments ctx context 1 parameters) none
  | .lazy value => return .reference "LuaLazyLoadedValue" [← mapType ctx context value]
  | .customTable key value => do
    let keyType ← mapType ctx context key
    let valueType ← mapType ctx context value
    return .reference "LuaCustomTable" [keyType, valueType]
  | .table shape => return .literal (← mapShape ctx context shape)

def mapTypes (ctx : Context) (context : String) : List TypeExpr → Synth (List Ty)
  | [] => return []
  | type :: types => do
    let ty ← mapType ctx context type
    let tys ← mapTypes ctx context types
    return ty :: tys

/-- The parameters of a function type, which are numbered. -/
def mapArguments (ctx : Context) (context : String) (number : Nat) :
    List TypeExpr → Synth (List Param)
  | [] => return []
  | type :: types => do
    let ty ← mapType ctx context type
    let params ← mapArguments ctx context (number + 1) types
    return .plain ("arg" ++ toString number) ty :: params

def mapShape (ctx : Context) (context : String) : TableShape → Synth (List Member)
  | ⟨parameters, _, _⟩ => inOrder (parameterSteps ctx context parameters)

def parameterSteps (ctx : Context) (context : String) :
    List Parameter → List (Placed (Synth Member))
  | [] => []
  | parameter :: parameters =>
    ⟨parameter.order, parameterProperty ctx context parameter⟩
      :: parameterSteps ctx context parameters

def parameterProperty (ctx : Context) (context : String) : Parameter → Synth Member
  | ⟨name, _, description, type, optional⟩ => do
    let inner := context ++ "." ++ name
    let ty ← mapType ctx inner type
    let doc ← describe ctx inner description
    return .property name ty optional false doc

end

def parameterMembers (ctx : Context) (context : String) (parameters : List Parameter) :
    Synth (List Member) :=
  inOrder (parameterSteps ctx context parameters)

end Typings.Synth

import Typings.Synthesis.Merging
import Typings.Synthesis.Positional
import Typings.Synthesis.Variants

/-! # Classes

A class becomes an interface: its call signature, its methods, its attributes and its length come in
this order, and then what the override adds.

* A class with `help`, `valid` and `object_name` extends the marker interface, which has these
  three, in place of repeating them.
* A class whose override extends an array type is array-like. It is split into the interface of its
  members and the type of its index, and its own name is for both.
* A method that takes a table with variants has a type of its own for its parameter, declared in
  front of the class.
-/

namespace Typings

open Schema (Attribute Method Parameter ReturnValue)

/-! ## Forms of classes -/

/-- The method that every object has. -/
def helpMethod : String := "help"

/-- The attribute that tells whether an object is still there. -/
def validAttribute : String := "valid"

/-- The attribute that names the class of an object. -/
def objectNameAttribute : String := "object_name"

def lengthMember : String := "length"

def Schema.Class.hasTriad (c : Schema.Class) : Bool :=
  (c.method? helpMethod).isSome
    && (c.attribute? validAttribute).any (·.type.name? == some "boolean")
    && (c.attribute? objectNameAttribute).any (·.type.name? == some "string")

def isTriadMember (name : String) : Bool :=
  name == helpMethod || name == validAttribute || name == objectNameAttribute

/-- Whether a supertype makes a class array-like. -/
def Ty.isArraySupertype : Ty → Bool
  | .reference name [_] => name == "ReadonlyArray" || name == "Array"
  | _ => false

/-- Whether the override makes its class array-like. -/
def Override.isArrayLike (o : Override) : Bool :=
  o.supertypes.any Ty.isArraySupertype

namespace Synth

/-! ## Signatures -/

/-- The parameter at an index, with its type. Only behind the last required one, which is at `last`,
    can it be left out; in front of that one it may be `undefined` instead. -/
def positionalParam (last : Option Nat) (index : Nat) (parameter : Parameter) (ty : Ty) : Param :=
  let trailing := last.all (· < index)
  match parameter.optional, trailing with
  | true, false => ⟨parameter.name, ty.orUndefined, false, false⟩
  | optional, _ => ⟨parameter.name, ty, optional, false⟩

/-- The parameters from an index on. They are in order. -/
def positionalParamsFrom (ctx : Context) (context : String) (last : Option Nat) (index : Nat) :
    List Parameter → Synth (List Param)
  | [] => return []
  | parameter :: rest => do
    let ty ← mapType ctx (context ++ "." ++ parameter.name) parameter.type
    let params ← positionalParamsFrom ctx context last (index + 1) rest
    return positionalParam last index parameter ty :: params

def positionalParams (ctx : Context) (context : String) (parameters : List Parameter) :
    Synth (List Param) :=
  let sorted := Schema.inOrder parameters
  let last := lastPosition? (fun parameter => !parameter.optional) sorted
  positionalParamsFrom ctx context last 0 sorted

def paramsName (className : String) (method : Method) : String :=
  className ++ Text.pascalCase method.name ++ "Params"

/-- The one parameter of a method that takes a table, and the declarations of its type. -/
def tableParam (ctx : Context) (className : String) (method : Method) :
    Synth (List Declaration × Param) := do
  if method.groups.isEmpty then
    let members ← parameterMembers ctx (className ++ "." ++ method.name) method.parameters
    return ([], ⟨"params", .literal members, method.tableIsOptional, false⟩)
  else
    let name := paramsName className method
    let decls ←
      expandVariants ctx ⟨name, method.parameters, method.groups, method.groupDescription⟩ none
    return (decls, ⟨"params", .named name, method.tableIsOptional, false⟩)

def methodParams (ctx : Context) (className : String) (method : Method) :
    Synth (List Declaration × List Param) := do
  if method.takesTable then
    let (decls, param) ← tableParam ctx className method
    return (decls, [param])
  else
    return ([], ← positionalParams ctx (className ++ "." ++ method.name) method.parameters)

def variadicParams (ctx : Context) (context : String) :
    Option Schema.TypeExpr → Synth (List Param)
  | none => return []
  | some type => do
    let ty ← mapType ctx context type
    return [⟨"args", .array ty, false, true⟩]

def returnValueType (ctx : Context) (context : String) (value : ReturnValue) : Synth Ty := do
  return widened value.optional (← mapType ctx context value.type)

def joinReturns : List Ty → Option Ty
  | [] => none
  | [ty] => some ty
  | tys =>
    some (.reference "LuaMultiReturn" [.tuple (tys.map fun ty => ⟨"", ty, false⟩)])

def returnType (ctx : Context) (context : String) (values : List ReturnValue) :
    Synth (Option Ty) := do
  return joinReturns (← each (returnValueType ctx context) (Schema.inOrder values))

def signature (ctx : Context) (className : String) (method : Method) :
    Synth (List Declaration × List Param × Option Ty) := do
  let context := className ++ "." ++ method.name
  let (decls, params) ← methodParams ctx className method
  let variadic ← variadicParams ctx context method.variadicType
  let ret ← returnType ctx context method.returnValues
  return (decls, params ++ variadic, ret)

/-! ## Members -/

def methodDoc (ctx : Context) (context : String) (method : Method) : Synth (Option String) :=
  documentation ctx context
    { description := method.description, notes := method.notes, examples := method.examples }

def mergeMethod (ctx : Context) (className : String) (o : Option Override) (method : Method) :
    Synth (List Declaration × Member) := do
  let doc ← methodDoc ctx (className ++ "." ++ method.name) method
  match ← claimMember className o method.name .method doc with
  | some member => return ([], member)
  | none =>
    let (decls, params, ret) ← signature ctx className method
    return (decls, .method method.name params ret doc)

def callMember (ctx : Context) (className : String) (call : Method) :
    Synth (List Declaration × Member) := do
  let doc ← methodDoc ctx (className ++ ".operator ()") call
  let (decls, params, ret) ← signature ctx className call
  return (decls, .call params ret doc)

def synthesizeLength (ctx : Context) (context : String) (length : Attribute) (arrayLike : Bool) :
    Synth Member := do
  let ty ← mapType ctx context length.type
  let ty := if arrayLike then ty else .reference "LuaLengthMethod" [ty]
  return .property lengthMember ty false true none

def mergeLength (ctx : Context) (className : String) (o : Option Override) (length : Attribute)
    (arrayLike : Bool) : Synth Member := do
  let context := className ++ ".operator #"
  let doc ← describe ctx context length.description
  mergeMember className o lengthMember .property doc
    (synthesizeLength ctx context length arrayLike)

/-- The members of a class, but for those that only the override has, and the declarations that they
    need. With the marker interface as supertype, the members of the marker are left out. -/
def schemaMembers (ctx : Context) (c : Schema.Class) (o : Option Override)
    (triad arrayLike : Bool) : Synth (List Declaration × List Member) := do
  let kept (name : String) : Bool := !(triad && isTriadMember name)
  let call ← each (callMember ctx c.name) c.callOperator?.toList
  let methods ←
    each (mergeMethod ctx c.name o) ((Schema.inOrder c.methods).filter fun m => kept m.name)
  let attributes ←
    each (mergeAttribute ctx c.name o) ((Schema.inOrder c.attributes).filter fun a => kept a.name)
  let length ← each (mergeLength ctx c.name o · arrayLike) c.lengthOperator?.toList
  let signed := call ++ methods
  return (signed.flatMap (·.1), signed.map (·.2) ++ attributes ++ length)

/-! ## The index -/

/-- Whether a type can be the type of an index: a name, or a single index signature. -/
def isIndexShape : Ty → Bool
  | .reference _ _ => true
  | .literal [.index _ _ _ _] => true
  | _ => false

/-- The type of the index of an array-like class: the one its override gives, or else that of its
    index operator. -/
def indexType (ctx : Context) (c : Schema.Class) (o : Option Override) : Synth (Option Ty) :=
  match o.bind (·.indexShape), c.indexOperator? with
  | some shape, _ =>
    if isIndexShape shape then return some shape else throw (.unsupportedIndexShape c.name)
  | none, some index => do
    let value ← mapType ctx (c.name ++ ".index") index.type
    return some (.literal [.index "index" (.keyword .number) value true])
  | none, none => return none

/-! ## Classes -/

/-- The supertypes of a class: its base classes, the marker interface, and those of the override
    that do not make it array-like. -/
def classSupertypes (ctx : Context) (c : Schema.Class) (o : Option Override) (triad : Bool) :
    List Ty :=
  c.baseClasses.map Ty.named
    ++ (if triad then [.named ctx.config.markerSupertype] else [])
    ++ ((o.map (·.supertypes)).getD []).filter fun ty => !ty.isArraySupertype

/-- The declarations of a class that is split: the interface of its members, the type of its index,
    and its name for both. -/
def splitClass (name : String) (supertypes : List Ty) (members : List Member) (index : Ty)
    (doc : Option String) : List Declaration :=
  [.interface { name := name ++ "Members", supertypes, members },
    .alias { name := name ++ "Index", ty := index },
    .alias ⟨name, .intersection [.named (name ++ "Members"), .named (name ++ "Index")], doc⟩]

def classDeclarations (ctx : Context) (c : Schema.Class) : Synth (List Declaration) := do
  let triad := c.hasTriad
  let o ← findOverride ctx c.name [.structural]
  let doc ← describeEntity ctx c.name c.description c.notes c.examples
  let arrayLike := o.any (·.isArrayLike)
  let supertypes := classSupertypes ctx c o triad
  let (decls, own) ← schemaMembers ctx c o triad arrayLike
  let members ← appendUnclaimed c.name o own
  let whole := Declaration.interface ⟨c.name, supertypes, members, doc⟩
  if arrayLike then
    match ← indexType ctx c o with
    | some index => return decls ++ splitClass c.name supertypes members index doc
    | none =>
      note (.missingIndexShape c.name)
      return decls ++ [whole]
  else return decls ++ [whole]

/-! ## The marker interface -/

def markerDoc : String := "Members shared by every runtime object."

/-- The declarations of the marker interface, with the members of the class. -/
def markerDeclarations (ctx : Context) (c : Schema.Class) : Synth (List Declaration) := do
  let name := ctx.config.markerSupertype
  let help ← each (mergeMethod ctx name none) (c.method? helpMethod).toList
  let attributes ←
    each (mergeAttribute ctx name none)
      ((c.attribute? validAttribute).toList ++ (c.attribute? objectNameAttribute).toList)
  let members := help.map (·.2) ++ attributes
  return help.flatMap (·.1) ++ [.interface ⟨name, [], members, some markerDoc⟩]

/-- The declarations of classes in order, and the marker interface. It is made before the first
    class that extends it, unless there is an override of it. -/
def classesFrom (ctx : Context) (marker : Option (List Declaration)) :
    List Schema.Class → Synth (List Declaration × Option (List Declaration))
  | [] => return ([], marker)
  | c :: cs => do
    let needed := c.hasTriad && marker.isNone
      && !ctx.overrides.contains ctx.config.markerSupertype
    let marker ← if needed then some <$> markerDeclarations ctx c else pure marker
    let decls ← classDeclarations ctx c
    let (rest, marker) ← classesFrom ctx marker cs
    return (decls ++ rest, marker)

/-- The declarations of the classes, with the marker interface at the end. -/
def classes (ctx : Context) : Synth (List Declaration) := do
  let (decls, marker) ← classesFrom ctx none (Schema.inOrder ctx.document.classes)
  return decls ++ marker.getD []

end Synth

end Typings

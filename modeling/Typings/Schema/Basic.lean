/-! # Schema documents

The documents that describe a scripting interface: its builtin types, classes, concepts, events,
constants and global objects.

* `TypeExpr`, `Parameter`, `ParameterGroup`, `TableShape`: type expressions and what tables are made
  of; tables and expressions contain each other.
* `Class`, `Concept`, `Event`, `Define`, …: the entities of a document.
* `Document`: a document.
* `Document.definePaths`: the qualified names in the tree of constants.
-/

namespace Typings.Schema

/-! ## Type expressions -/

mutual

/-- A type as a schema document writes it. -/
inductive TypeExpr where
  | named (name : String)
  | array (value : TypeExpr)
  | dictionary (key value : TypeExpr)
  | variant (options : List TypeExpr)
  | function (parameters : List TypeExpr)
  /-- A value that is computed when it is first asked for. -/
  | lazy (value : TypeExpr)
  /-- A dictionary that belongs to the application. -/
  | customTable (key value : TypeExpr)
  | table (shape : TableShape)

/-- A parameter of a method, an event or a table. -/
structure Parameter where
  name : String
  order : Nat
  description : String
  type : TypeExpr
  optional : Bool

/-- Parameters that belong to one variant of a table. -/
structure ParameterGroup where
  name : String
  order : Nat
  description : String
  parameters : List Parameter

/-- The parameters of a table: those of every variant, and those of each one. -/
structure TableShape where
  parameters : List Parameter
  groups : List ParameterGroup
  groupDescription : Option String

end

def TypeExpr.name? : TypeExpr → Option String
  | .named name => some name
  | _ => none

mutual

def TypeExpr.text : TypeExpr → String
  | .named name => name
  | .array value => "array[" ++ value.text ++ "]"
  | .dictionary key value => "dictionary[" ++ key.text ++ " -> " ++ value.text ++ "]"
  | .variant options => " or ".intercalate (TypeExpr.texts options)
  | .function _ => "function"
  | .lazy value => "LuaLazyLoadedValue[" ++ value.text ++ "]"
  | .customTable key value => "LuaCustomTable[" ++ key.text ++ " -> " ++ value.text ++ "]"
  | .table _ => "table"

def TypeExpr.texts : List TypeExpr → List String
  | [] => []
  | t :: ts => t.text :: TypeExpr.texts ts

end

def Parameter.required (name : String) (order : Nat) (type : TypeExpr) : Parameter :=
  ⟨name, order, "", type, false⟩

def Parameter.optionally (name : String) (order : Nat) (type : TypeExpr) : Parameter :=
  ⟨name, order, "", type, true⟩

/-! ## Parts of entities -/

/-- A named option: a flag, a value of an enumeration, a constant. -/
structure NamedOption where
  name : String
  order : Nat
  description : String := ""

structure UnionOption where
  order : Nat
  description : String
  type : TypeExpr

/-- An attribute of a class or a structure. -/
structure Attribute where
  name : String
  order : Nat
  description : String := ""
  notes : List String := []
  examples : List String := []
  type : TypeExpr
  read : Bool := false
  write : Bool := false
  optional : Bool := false

namespace Attribute

def readOnly (name : String) (order : Nat) (type : TypeExpr) : Attribute :=
  { name, order, type, read := true }

def readWrite (name : String) (order : Nat) (type : TypeExpr) : Attribute :=
  { name, order, type, read := true, write := true }

def writeOnly (name : String) (order : Nat) (type : TypeExpr) : Attribute :=
  { name, order, type, write := true }

def isWriteOnly (attr : Attribute) : Bool :=
  attr.write && !attr.read

end Attribute

structure ReturnValue where
  order : Nat
  description : String
  type : TypeExpr
  optional : Bool

structure Method where
  name : String
  order : Nat
  description : String := ""
  notes : List String := []
  examples : List String := []
  parameters : List Parameter := []
  groups : List ParameterGroup := []
  groupDescription : Option String := none
  variadicType : Option TypeExpr := none
  /-- Whether the parameters are given as one table. -/
  takesTable : Bool := false
  tableIsOptional : Bool := false
  returnValues : List ReturnValue := []

def Method.withParameter (method : Method) (parameter : Parameter) : Method :=
  { method with parameters := method.parameters ++ [parameter] }

def Method.returning (method : Method) (type : TypeExpr) : Method :=
  { method with
    returnValues := method.returnValues ++ [⟨method.returnValues.length, "", type, false⟩] }

inductive Operator where
  | call (method : Method)
  | length (attr : Attribute)
  | index (attr : Attribute)

/-! ## Entities -/

structure BuiltinType where
  name : String
  order : Nat
  description : String

structure Class where
  name : String
  order : Nat
  description : String := ""
  notes : List String := []
  examples : List String := []
  baseClasses : List String := []
  methods : List Method := []
  attributes : List Attribute := []
  operators : List Operator := []

namespace Class

def method? (c : Class) (name : String) : Option Method :=
  c.methods.find? (·.name == name)

def attribute? (c : Class) (name : String) : Option Attribute :=
  c.attributes.find? (·.name == name)

def callOperator? (c : Class) : Option Method :=
  c.operators.findSome? fun
    | .call method => some method
    | _ => none

def lengthOperator? (c : Class) : Option Attribute :=
  c.operators.findSome? fun
    | .length attr => some attr
    | _ => none

def indexOperator? (c : Class) : Option Attribute :=
  c.operators.findSome? fun
    | .index attr => some attr
    | _ => none

end Class

/-- What a concept is, by its category. -/
inductive ConceptKind where
  /-- Described in prose only. -/
  | prose
  | union (options : List UnionOption)
  | structure (attributes : List Attribute)
  | flag (options : List NamedOption)
  | table (shape : TableShape)
  | filter (shape : TableShape)
  | enumeration (options : List NamedOption)
  | tableOrArray (parameters : List Parameter)

def ConceptKind.category : ConceptKind → String
  | .prose => "concept"
  | .union _ => "union"
  | .structure _ => "struct"
  | .flag _ => "flag"
  | .table _ => "table"
  | .filter _ => "filter"
  | .enumeration _ => "enum"
  | .tableOrArray _ => "table_or_array"

/-- A named type that several entities share. -/
structure Concept where
  name : String
  order : Nat
  description : String := ""
  notes : List String := []
  examples : List String := []
  kind : ConceptKind

/-- An event with the data it carries. -/
structure Event where
  name : String
  order : Nat
  description : String := ""
  notes : List String := []
  examples : List String := []
  data : List Parameter := []

/-- A node in the tree of constants: with values it is an enumeration, with subkeys a namespace. -/
inductive Define where
  | node (name : String) (order : Nat) (description : String) (values : List NamedOption)
      (subkeys : List Define)

namespace Define

def name : Define → String
  | node name _ _ _ _ => name

def order : Define → Nat
  | node _ order _ _ _ => order

def description : Define → String
  | node _ _ description _ _ => description

def values : Define → List NamedOption
  | node _ _ _ values _ => values

def subkeys : Define → List Define
  | node _ _ _ _ subkeys => subkeys

end Define

structure GlobalObject where
  name : String
  order : Nat
  description : String
  type : TypeExpr

/-! ## Documents -/

structure Document where
  application : String
  stage : String
  applicationVersion : String := ""
  apiVersion : Nat
  builtinTypes : List BuiltinType := []
  classes : List Class := []
  concepts : List Concept := []
  events : List Event := []
  defines : List Define := []
  globalObjects : List GlobalObject := []

def qualified (path name : String) : String :=
  path ++ "." ++ name

mutual

/-- The qualified names of a node below a path: its own, those of its values, and those of the nodes
    below it. -/
def Define.paths (path : String) : Define → List String
  | .node name _ _ values subkeys =>
    [qualified path name] ++ values.map (fun value => qualified (qualified path name) value.name)
      ++ Define.listPaths (qualified path name) subkeys

def Define.listPaths (path : String) : List Define → List String
  | [] => []
  | d :: ds => d.paths path ++ Define.listPaths path ds

end

namespace Document

def class? (document : Document) (name : String) : Option Class :=
  document.classes.find? (·.name == name)

def concept? (document : Document) (name : String) : Option Concept :=
  document.concepts.find? (·.name == name)

/-- The qualified names in the tree of constants below `root`, in the order of the document. -/
def definePaths (document : Document) (root : String) : List String :=
  Define.listPaths root document.defines

end Document

end Typings.Schema

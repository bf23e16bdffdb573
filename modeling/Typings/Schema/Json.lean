import Typings.Json.Decode
import Typings.Schema.Basic

/-! # JSON form of schema documents

Schema documents are decoded from JSON values and written to them.

* A type expression is its name, or an object tagged by `complex_type`. Complex expressions are
  taken as a whole: their objects are dictionaries.
* An operator is an object tagged by its name; a concept carries the fields of its category beside
  its own.
* `TypeExpr.decoder`, `Document.decoder`, …: decoding.
* `TypeExpr.toJson`, `Document.toJson`, …: writing. Every field is written, but for those of an
  operator that do not belong to its kind.
-/

namespace Typings.Schema

open Json (Decoder Record Entry optionalEntry listEntry strings hold)

/-! ## Decoding -/

def textField (name : String) : Record String :=
  .optional name "" .string

def textsField (name : String) : Record (List String) :=
  .optional name [] (.list .string)

def listField {α : Type} (name : String) (item : Decoder α) : Record (List α) :=
  .optional name [] (.list item)

def flagField (name : String) : Record Bool :=
  .optional name false .bool

def Parameter.decoderOf (type : Decoder TypeExpr) : Decoder Parameter :=
  Record.decoder
    (Parameter.mk <$> .required "name" .string <*> .required "order" .word32
      <*> textField "description" <*> .required "type" type <*> flagField "optional")
    "struct Parameter"

def ParameterGroup.decoderOf (type : Decoder TypeExpr) : Decoder ParameterGroup :=
  Record.decoder
    (ParameterGroup.mk <$> .required "name" .string <*> .required "order" .word32
      <*> textField "description" <*> listField "parameters" (Parameter.decoderOf type))
    "struct VariantParameterGroup"

def TableShape.decoderOf (type : Decoder TypeExpr) : Decoder TableShape :=
  Record.decoder
    (TableShape.mk <$> listField "parameters" (Parameter.decoderOf type)
      <*> listField "variant_parameter_groups" (ParameterGroup.decoderOf type)
      <*> .optional "variant_parameter_description" none (.nullable .string))
    "struct TableShape"

def TypeExpr.complexDecoder (type : Decoder TypeExpr) : Decoder TypeExpr :=
  .tagged "ComplexType" "complex_type"
    [("array", Record.decoder (TypeExpr.array <$> .required "value" type)
        "struct variant ComplexType::Array"),
      ("dictionary", Record.decoder
        (TypeExpr.dictionary <$> .required "key" type <*> .required "value" type)
        "struct variant ComplexType::Dictionary"),
      ("variant", Record.decoder (TypeExpr.variant <$> .required "options" (.list type))
        "struct variant ComplexType::Variant"),
      ("function", Record.decoder (TypeExpr.function <$> .required "parameters" (.list type))
        "struct variant ComplexType::Function"),
      ("LuaLazyLoadedValue", Record.decoder (TypeExpr.lazy <$> .required "value" type)
        "struct variant ComplexType::LazyLoadedValue"),
      ("LuaCustomTable", Record.decoder
        (TypeExpr.customTable <$> .required "key" type <*> .required "value" type)
        "struct variant ComplexType::CustomTable"),
      ("table", .mapTo .table (TableShape.decoderOf type))]

def TypeExpr.step (type : Decoder TypeExpr) : Decoder TypeExpr := fun _ j => do
  let j ← hold j
  match j.sorted with
  | .string name => return .named name
  | j => TypeExpr.complexDecoder type .direct j

def TypeExpr.decoder : Decoder TypeExpr :=
  .fix TypeExpr.step

def Parameter.decoder : Decoder Parameter :=
  Parameter.decoderOf TypeExpr.decoder

def ParameterGroup.decoder : Decoder ParameterGroup :=
  ParameterGroup.decoderOf TypeExpr.decoder

def TableShape.decoder : Decoder TableShape :=
  TableShape.decoderOf TypeExpr.decoder

def NamedOption.decoder : Decoder NamedOption :=
  Record.decoder
    (NamedOption.mk <$> .required "name" .string <*> .required "order" .word32
      <*> textField "description")
    "struct NamedOption"

def UnionOption.decoder : Decoder UnionOption :=
  Record.decoder
    (UnionOption.mk <$> .required "order" .word32 <*> textField "description"
      <*> .required "type" TypeExpr.decoder)
    "struct UnionOption"

def Attribute.decoder : Decoder Attribute :=
  Record.decoder
    (Attribute.mk <$> .required "name" .string <*> .required "order" .word32
      <*> textField "description" <*> textsField "notes" <*> textsField "examples"
      <*> .required "type" TypeExpr.decoder <*> flagField "read" <*> flagField "write"
      <*> flagField "optional")
    "struct Attribute"

def ReturnValue.decoder : Decoder ReturnValue :=
  Record.decoder
    (ReturnValue.mk <$> .required "order" .word32 <*> textField "description"
      <*> .required "type" TypeExpr.decoder <*> flagField "optional")
    "struct ReturnValue"

def Method.decoder : Decoder Method :=
  Record.decoder
    (Method.mk <$> .required "name" .string <*> .required "order" .word32
      <*> textField "description" <*> textsField "notes" <*> textsField "examples"
      <*> listField "parameters" Parameter.decoder
      <*> listField "variant_parameter_groups" ParameterGroup.decoder
      <*> .optional "variant_parameter_description" none (.nullable .string)
      <*> .optional "variadic_type" none (.nullable TypeExpr.decoder)
      <*> flagField "takes_table" <*> flagField "table_is_optional"
      <*> listField "return_values" ReturnValue.decoder)
    "struct Method"

/-- The fields that a document may give for an operator, whatever its kind. -/
structure OperatorFields where
  name : String
  order : Nat
  description : String
  parameters : List Parameter
  variadicType : Option TypeExpr
  returnValues : List ReturnValue
  type : Option TypeExpr
  read : Bool
  write : Bool
  optional : Bool

def OperatorFields.decoder : Decoder OperatorFields :=
  Record.decoder
    (OperatorFields.mk <$> .required "name" .string <*> .optional "order" 0 .word32
      <*> textField "description" <*> listField "parameters" Parameter.decoder
      <*> .optional "variadic_type" none (.nullable TypeExpr.decoder)
      <*> listField "return_values" ReturnValue.decoder
      <*> .optional "type" none (.nullable TypeExpr.decoder)
      <*> flagField "read" <*> flagField "write" <*> flagField "optional")
    "struct RawOperator"

def OperatorFields.attribute (fields : OperatorFields) : Except Json.Error Attribute :=
  match fields.type with
  | none => .error (.rejected ("operator `" ++ fields.name ++ "` is missing its type"))
  | some type =>
    .ok
      { name := fields.name, order := fields.order, description := fields.description,
        type, read := fields.read, write := fields.write, optional := fields.optional }

def OperatorFields.operator (fields : OperatorFields) : Except Json.Error Operator :=
  match fields.name with
  | "call" =>
    .ok (.call
      { name := "call", order := fields.order, description := fields.description,
        parameters := fields.parameters, variadicType := fields.variadicType,
        returnValues := fields.returnValues })
  | "length" => fields.attribute.map .length
  | "index" => fields.attribute.map .index
  | name => .error (.rejected ("unknown operator `" ++ name ++ "`"))

def Operator.decoder : Decoder Operator := fun reading j => do
  (← OperatorFields.decoder reading j).operator

def BuiltinType.decoder : Decoder BuiltinType :=
  Record.decoder
    (BuiltinType.mk <$> .required "name" .string <*> .required "order" .word32
      <*> textField "description")
    "struct BuiltinType"

def Class.decoder : Decoder Class :=
  Record.decoder
    (Class.mk <$> .required "name" .string <*> .required "order" .word32
      <*> textField "description" <*> textsField "notes" <*> textsField "examples"
      <*> textsField "base_classes" <*> listField "methods" Method.decoder
      <*> listField "attributes" Attribute.decoder <*> listField "operators" Operator.decoder)
    "struct Class"

def ConceptKind.decoder : Decoder ConceptKind :=
  .tagged "ConceptKind" "category"
    [("concept", fun _ _ => .ok .prose),
      ("union", Record.decoder
        (ConceptKind.union <$> .required "options" (.list UnionOption.decoder))
        "struct variant ConceptKind::Union"),
      ("struct", Record.decoder
        (ConceptKind.structure <$> .required "attributes" (.list Attribute.decoder))
        "struct variant ConceptKind::Struct"),
      ("flag", Record.decoder
        (ConceptKind.flag <$> .required "options" (.list NamedOption.decoder))
        "struct variant ConceptKind::Flag"),
      ("table", .mapTo .table TableShape.decoder),
      ("filter", .mapTo .filter TableShape.decoder),
      ("enum", Record.decoder
        (ConceptKind.enumeration <$> .required "options" (.list NamedOption.decoder))
        "struct variant ConceptKind::Enum"),
      ("table_or_array", Record.decoder
        (ConceptKind.tableOrArray <$> .required "parameters" (.list Parameter.decoder))
        "struct variant ConceptKind::TableOrArray")]

/-- The fields of a concept of any category; what is left to know is its kind. -/
def Concept.record : Record (ConceptKind → Concept) :=
  Concept.mk <$> .required "name" .string <*> .required "order" .word32
    <*> textField "description" <*> textsField "notes" <*> textsField "examples"

/-- A concept. The fields that are not its own are held, and the kind is read from them. -/
def Concept.decoder : Decoder Concept := fun reading j =>
  match j.plain with
  | .object entries => do
    let concept ← Concept.record.ofEntriesAside Json.readFault? reading entries
    let kind ← ConceptKind.decoder .held (.object (Concept.record.otherEntries entries))
    return concept kind
  | j => .error (Json.mismatch j "struct Concept")

def Event.decoder : Decoder Event :=
  Record.decoder
    (Event.mk <$> .required "name" .string <*> .required "order" .word32
      <*> textField "description" <*> textsField "notes" <*> textsField "examples"
      <*> listField "data" Parameter.decoder)
    "struct Event"

def Define.step (define : Decoder Define) : Decoder Define :=
  Record.decoder
    (Define.node <$> .required "name" .string <*> .required "order" .word32
      <*> textField "description" <*> listField "values" NamedOption.decoder
      <*> listField "subkeys" define)
    "struct Define"

def Define.decoder : Decoder Define :=
  .fix Define.step

def GlobalObject.decoder : Decoder GlobalObject :=
  Record.decoder
    (GlobalObject.mk <$> .required "name" .string <*> .required "order" .word32
      <*> textField "description" <*> .required "type" TypeExpr.decoder)
    "struct GlobalObject"

def Document.decoder : Decoder Document :=
  Record.decoder
    (Document.mk <$> .required "application" .string <*> .required "stage" .string
      <*> textField "application_version" <*> .required "api_version" .word32
      <*> listField "builtin_types" BuiltinType.decoder
      <*> listField "classes" Class.decoder <*> listField "concepts" Concept.decoder
      <*> listField "events" Event.decoder <*> listField "defines" Define.decoder
      <*> listField "global_objects" GlobalObject.decoder)
    "struct SchemaDocument"

/-! ## Writing -/

def numberEntry (key : String) (n : Nat) : Entry :=
  .field key (.integer n)

def textEntry (key : String) (text : String) : Entry :=
  .field key (.string text)

def orNull : Option Json → Json
  | some j => j
  | none => .null

mutual

def TypeExpr.toJson : TypeExpr → Json
  | .named name => .string name
  | .array value => .object [textEntry "complex_type" "array", .field "value" value.toJson]
  | .dictionary key value =>
    .object [textEntry "complex_type" "dictionary", .field "key" key.toJson,
      .field "value" value.toJson]
  | .variant options =>
    .object [textEntry "complex_type" "variant",
      .field "options" (.array (TypeExpr.listToJson options))]
  | .function parameters =>
    .object [textEntry "complex_type" "function",
      .field "parameters" (.array (TypeExpr.listToJson parameters))]
  | .lazy value =>
    .object [textEntry "complex_type" "LuaLazyLoadedValue", .field "value" value.toJson]
  | .customTable key value =>
    .object [textEntry "complex_type" "LuaCustomTable", .field "key" key.toJson,
      .field "value" value.toJson]
  | .table shape => .object (textEntry "complex_type" "table" :: shape.entries)

def TypeExpr.listToJson : List TypeExpr → List Json
  | [] => []
  | t :: ts => t.toJson :: TypeExpr.listToJson ts

def Parameter.toJson : Parameter → Json
  | ⟨name, order, description, type, optional⟩ =>
    .object [textEntry "name" name, numberEntry "order" order,
      textEntry "description" description, .field "type" type.toJson,
      .field "optional" (.bool optional)]

def Parameter.listToJson : List Parameter → List Json
  | [] => []
  | p :: ps => p.toJson :: Parameter.listToJson ps

def ParameterGroup.toJson : ParameterGroup → Json
  | ⟨name, order, description, parameters⟩ =>
    .object [textEntry "name" name, numberEntry "order" order,
      textEntry "description" description,
      .field "parameters" (.array (Parameter.listToJson parameters))]

def ParameterGroup.listToJson : List ParameterGroup → List Json
  | [] => []
  | g :: gs => g.toJson :: ParameterGroup.listToJson gs

def TableShape.entries : TableShape → List Entry
  | ⟨parameters, groups, groupDescription⟩ =>
    [.field "parameters" (.array (Parameter.listToJson parameters)),
      .field "variant_parameter_groups" (.array (ParameterGroup.listToJson groups)),
      .field "variant_parameter_description" (orNull (groupDescription.map .string))]

end

def NamedOption.toJson (o : NamedOption) : Json :=
  .object [textEntry "name" o.name, numberEntry "order" o.order,
    textEntry "description" o.description]

def UnionOption.toJson (o : UnionOption) : Json :=
  .object [numberEntry "order" o.order, textEntry "description" o.description,
    .field "type" o.type.toJson]

def Attribute.toJson (a : Attribute) : Json :=
  .object [textEntry "name" a.name, numberEntry "order" a.order,
    textEntry "description" a.description, .field "notes" (strings a.notes),
    .field "examples" (strings a.examples), .field "type" a.type.toJson,
    .field "read" (.bool a.read), .field "write" (.bool a.write),
    .field "optional" (.bool a.optional)]

def ReturnValue.toJson (r : ReturnValue) : Json :=
  .object [numberEntry "order" r.order, textEntry "description" r.description,
    .field "type" r.type.toJson, .field "optional" (.bool r.optional)]

def Method.toJson (m : Method) : Json :=
  .object [textEntry "name" m.name, numberEntry "order" m.order,
    textEntry "description" m.description, .field "notes" (strings m.notes),
    .field "examples" (strings m.examples),
    .field "parameters" (.array (Parameter.listToJson m.parameters)),
    .field "variant_parameter_groups" (.array (ParameterGroup.listToJson m.groups)),
    .field "variant_parameter_description" (orNull (m.groupDescription.map .string)),
    .field "variadic_type" (orNull (m.variadicType.map TypeExpr.toJson)),
    .field "takes_table" (.bool m.takesTable),
    .field "table_is_optional" (.bool m.tableIsOptional),
    .field "return_values" (.array (m.returnValues.map ReturnValue.toJson))]

/-- The fields as the entries of an object; those without a value are left out. -/
def OperatorFields.toJson (fields : OperatorFields) : Json :=
  .object ([textEntry "name" fields.name, numberEntry "order" fields.order,
      textEntry "description" fields.description]
    ++ listEntry "parameters" (Parameter.listToJson fields.parameters)
    ++ optionalEntry "variadic_type" (fields.variadicType.map TypeExpr.toJson)
    ++ listEntry "return_values" (fields.returnValues.map ReturnValue.toJson)
    ++ optionalEntry "type" (fields.type.map TypeExpr.toJson)
    ++ [.field "read" (.bool fields.read), .field "write" (.bool fields.write),
      .field "optional" (.bool fields.optional)])

def OperatorFields.ofAttribute (name : String) (a : Attribute) : OperatorFields :=
  ⟨name, a.order, a.description, [], none, [], some a.type, a.read, a.write, a.optional⟩

def OperatorFields.ofOperator : Operator → OperatorFields
  | .call m =>
    ⟨"call", m.order, m.description, m.parameters, m.variadicType, m.returnValues, none, false,
      false, false⟩
  | .length a => .ofAttribute "length" a
  | .index a => .ofAttribute "index" a

def Operator.toJson (operator : Operator) : Json :=
  (OperatorFields.ofOperator operator).toJson

def BuiltinType.toJson (b : BuiltinType) : Json :=
  .object [textEntry "name" b.name, numberEntry "order" b.order,
    textEntry "description" b.description]

def Class.toJson (c : Class) : Json :=
  .object [textEntry "name" c.name, numberEntry "order" c.order,
    textEntry "description" c.description, .field "notes" (strings c.notes),
    .field "examples" (strings c.examples), .field "base_classes" (strings c.baseClasses),
    .field "methods" (.array (c.methods.map Method.toJson)),
    .field "attributes" (.array (c.attributes.map Attribute.toJson)),
    .field "operators" (.array (c.operators.map Operator.toJson))]

def ConceptKind.entries : ConceptKind → List Entry
  | .prose => []
  | .union options => [.field "options" (.array (options.map UnionOption.toJson))]
  | .structure attributes => [.field "attributes" (.array (attributes.map Attribute.toJson))]
  | .flag options => [.field "options" (.array (options.map NamedOption.toJson))]
  | .table shape => shape.entries
  | .filter shape => shape.entries
  | .enumeration options => [.field "options" (.array (options.map NamedOption.toJson))]
  | .tableOrArray parameters =>
    [.field "parameters" (.array (Parameter.listToJson parameters))]

def Concept.toJson (c : Concept) : Json :=
  .object ([textEntry "name" c.name, numberEntry "order" c.order,
      textEntry "description" c.description, .field "notes" (strings c.notes),
      .field "examples" (strings c.examples), textEntry "category" c.kind.category]
    ++ c.kind.entries)

def Event.toJson (e : Event) : Json :=
  .object [textEntry "name" e.name, numberEntry "order" e.order,
    textEntry "description" e.description, .field "notes" (strings e.notes),
    .field "examples" (strings e.examples),
    .field "data" (.array (Parameter.listToJson e.data))]

mutual

def Define.toJson : Define → Json
  | .node name order description values subkeys =>
    .object [textEntry "name" name, numberEntry "order" order,
      textEntry "description" description,
      .field "values" (.array (values.map NamedOption.toJson)),
      .field "subkeys" (.array (Define.listToJson subkeys))]

def Define.listToJson : List Define → List Json
  | [] => []
  | d :: ds => d.toJson :: Define.listToJson ds

end

def GlobalObject.toJson (g : GlobalObject) : Json :=
  .object [textEntry "name" g.name, numberEntry "order" g.order,
    textEntry "description" g.description, .field "type" g.type.toJson]

def Document.toJson (d : Document) : Json :=
  .object [textEntry "application" d.application, textEntry "stage" d.stage,
    textEntry "application_version" d.applicationVersion,
    numberEntry "api_version" d.apiVersion,
    .field "builtin_types" (.array (d.builtinTypes.map BuiltinType.toJson)),
    .field "classes" (.array (d.classes.map Class.toJson)),
    .field "concepts" (.array (d.concepts.map Concept.toJson)),
    .field "events" (.array (d.events.map Event.toJson)),
    .field "defines" (.array (Define.listToJson d.defines)),
    .field "global_objects" (.array (d.globalObjects.map GlobalObject.toJson))]

end Typings.Schema

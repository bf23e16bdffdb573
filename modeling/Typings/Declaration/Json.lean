import Typings.Declaration.Basic
import Typings.Json.Decode

/-! # JSON form of declarations

Types and declarations are written to JSON values and decoded from them.

* A type is an object with its form as the one key; members and declarations carry their kind in the
  field `kind`.
* Documentation, return types, supertypes and type arguments are left out when there are none; every
  other field is written.
* `Ty.toJson`, `Ty.decoder`; `Member.toJson`, `Member.decoder`; `Declaration.toJson`,
  `Declaration.decoder`: the two directions.
-/

namespace Typings

open Json (Decoder Record Entry optionalEntry listEntry)

/-! ## Writing -/

def docEntry (doc : Option String) : List Entry :=
  optionalEntry "doc" (doc.map .string)

mutual

def Ty.toJson : Ty → Json
  | .keyword keyword => .object [.field "keyword" (.string keyword.text)]
  | .reference name args =>
    .object [.field "reference"
      (.object (.field "name" (.string name) :: listEntry "args" (Ty.listToJson args)))]
  | .text value => .object [.field "string_literal" (.string value)]
  | .number value => .object [.field "number_literal" (.integer value)]
  | .array item => .object [.field "array" item.toJson]
  | .tuple elements => .object [.field "tuple" (.array (TupleElement.listToJson elements))]
  | .union options => .object [.field "union" (.array (Ty.listToJson options))]
  | .intersection parts => .object [.field "intersection" (.array (Ty.listToJson parts))]
  | .function params ret =>
    .object [.field "function"
      (.object (.field "params" (.array (Param.listToJson params)) :: Ty.retToJson ret))]
  | .literal members => .object [.field "literal" (.array (Member.listToJson members))]

def Ty.listToJson : List Ty → List Json
  | [] => []
  | ty :: tys => ty.toJson :: Ty.listToJson tys

def Ty.retToJson : Option Ty → List Entry
  | none => []
  | some ty => [.field "ret" ty.toJson]

def TupleElement.toJson : TupleElement → Json
  | ⟨name, ty, optional⟩ =>
    .object [.field "name" (.string name), .field "ty" ty.toJson,
      .field "optional" (.bool optional)]

def TupleElement.listToJson : List TupleElement → List Json
  | [] => []
  | e :: es => e.toJson :: TupleElement.listToJson es

def Param.toJson : Param → Json
  | ⟨name, ty, optional, rest⟩ =>
    .object [.field "name" (.string name), .field "ty" ty.toJson,
      .field "optional" (.bool optional), .field "rest" (.bool rest)]

def Param.listToJson : List Param → List Json
  | [] => []
  | p :: ps => p.toJson :: Param.listToJson ps

def Member.toJson : Member → Json
  | .property name ty optional readonly doc =>
    .object ([.field "kind" (.string "property"), .field "name" (.string name),
      .field "ty" ty.toJson, .field "optional" (.bool optional),
      .field "readonly" (.bool readonly)] ++ docEntry doc)
  | .setter name param doc =>
    .object ([.field "kind" (.string "setter"), .field "name" (.string name),
      .field "param" param.toJson] ++ docEntry doc)
  | .method name params ret doc =>
    .object ([.field "kind" (.string "method"), .field "name" (.string name),
      .field "params" (.array (Param.listToJson params))] ++ Ty.retToJson ret ++ docEntry doc)
  | .call params ret doc =>
    .object ([.field "kind" (.string "call"),
      .field "params" (.array (Param.listToJson params))] ++ Ty.retToJson ret ++ docEntry doc)
  | .index keyName key value readonly =>
    .object [.field "kind" (.string "index"), .field "key_name" (.string keyName),
      .field "key" key.toJson, .field "value" value.toJson, .field "readonly" (.bool readonly)]

def Member.listToJson : List Member → List Json
  | [] => []
  | m :: ms => m.toJson :: Member.listToJson ms

end

def Interface.entries (decl : Interface) : List Entry :=
  [.field "name" (.string decl.name)] ++ listEntry "extends" (Ty.listToJson decl.supertypes)
    ++ [.field "members" (.array (Member.listToJson decl.members))] ++ docEntry decl.doc

def Alias.entries (decl : Alias) : List Entry :=
  [.field "name" (.string decl.name), .field "ty" decl.ty.toJson] ++ docEntry decl.doc

def EnumMember.toJson (member : EnumMember) : Json :=
  .object ([.field "name" (.string member.name), .field "value" (.integer member.value)]
    ++ docEntry member.doc)

def Enumeration.entries (decl : Enumeration) : List Entry :=
  [.field "name" (.string decl.name),
    .field "members" (.array (decl.members.map EnumMember.toJson))] ++ docEntry decl.doc

def Const.entries (decl : Const) : List Entry :=
  [.field "name" (.string decl.name), .field "ty" decl.ty.toJson] ++ docEntry decl.doc

mutual

def Declaration.toJson : Declaration → Json
  | .interface decl => .object (.field "kind" (.string "interface") :: decl.entries)
  | .alias decl => .object (.field "kind" (.string "type_alias") :: decl.entries)
  | .nameSpace name body doc =>
    .object ([.field "kind" (.string "namespace"), .field "name" (.string name),
      .field "body" (.array (Declaration.listToJson body))] ++ docEntry doc)
  | .enumeration decl => .object (.field "kind" (.string "enum") :: decl.entries)
  | .const decl => .object (.field "kind" (.string "const") :: decl.entries)

def Declaration.listToJson : List Declaration → List Json
  | [] => []
  | d :: ds => d.toJson :: Declaration.listToJson ds

end

/-! ## Decoding -/

def Keyword.names : List (String × Keyword) :=
  [.any, .unknown, .boolean, .number, .string, .undefined, .void, .object].map fun k => (k.text, k)

def docField : Record (Option String) :=
  .optional "doc" none (.nullable .string)

def TupleElement.decoder (ty : Decoder Ty) : Decoder TupleElement :=
  Record.decoder
    (TupleElement.mk <$> .required "name" .string <*> .required "ty" ty
      <*> .optional "optional" false .bool)
    "struct TupleElement"

def Param.decoder (ty : Decoder Ty) : Decoder Param :=
  Record.decoder
    (Param.mk <$> .required "name" .string <*> .required "ty" ty
      <*> .optional "optional" false .bool <*> .optional "rest" false .bool)
    "struct Param"

def Member.decoderOf (ty : Decoder Ty) : Decoder Member :=
  .tagged "Member" "kind"
    [("property", Record.decoder
        (Member.property <$> .required "name" .string <*> .required "ty" ty
          <*> .optional "optional" false .bool <*> .optional "readonly" false .bool <*> docField)
        "struct PropertySig"),
      ("setter", Record.decoder
        (Member.setter <$> .required "name" .string <*> .required "param" (Param.decoder ty)
          <*> docField)
        "struct SetterSig"),
      ("method", Record.decoder
        (Member.method <$> .required "name" .string
          <*> .optional "params" [] (.list (Param.decoder ty))
          <*> .optional "ret" none (.nullable ty) <*> docField)
        "struct MethodSig"),
      ("call", Record.decoder
        (Member.call <$> .optional "params" [] (.list (Param.decoder ty))
          <*> .optional "ret" none (.nullable ty) <*> docField)
        "struct CallSig"),
      ("index", Record.decoder
        (Member.index <$> .required "key_name" .string <*> .required "key" ty
          <*> .required "value" ty <*> .optional "readonly" false .bool)
        "struct IndexSig")]

def Ty.step (ty : Decoder Ty) : Decoder Ty :=
  .alternative
    [("keyword", "newtype variant", .mapTo .keyword (.choice Keyword.names)),
      ("reference", "struct variant", Record.variant
        (Ty.reference <$> .required "name" .string <*> .optional "args" [] (.list ty))
        "struct variant TypeNode::Reference"),
      ("string_literal", "newtype variant", .mapTo .text .string),
      ("number_literal", "newtype variant", .mapTo .number .int64),
      ("array", "newtype variant", .mapTo .array ty),
      ("tuple", "newtype variant", .mapTo .tuple (.list (TupleElement.decoder ty))),
      ("union", "newtype variant", .mapTo .union (.list ty)),
      ("intersection", "newtype variant", .mapTo .intersection (.list ty)),
      ("function", "struct variant", Record.variant
        (Ty.function <$> .required "params" (.list (Param.decoder ty))
          <*> .optional "ret" none (.nullable ty))
        "struct variant TypeNode::Function"),
      ("literal", "newtype variant", .mapTo .literal (.list (Member.decoderOf ty)))]

def Ty.decoder : Decoder Ty :=
  .fix Ty.step

def Member.decoder : Decoder Member :=
  Member.decoderOf Ty.decoder

def Interface.record : Record Interface :=
  Interface.mk <$> .required "name" .string <*> .optional "extends" [] (.list Ty.decoder)
    <*> .optional "members" [] (.list Member.decoder) <*> docField

def Alias.record : Record Alias :=
  Alias.mk <$> .required "name" .string <*> .required "ty" Ty.decoder <*> docField

def EnumMember.decoder : Decoder EnumMember :=
  Record.decoder
    (EnumMember.mk <$> .required "name" .string <*> .required "value" .int64 <*> docField)
    "struct EnumMember"

def Enumeration.record : Record Enumeration :=
  Enumeration.mk <$> .required "name" .string
    <*> .optional "members" [] (.list EnumMember.decoder) <*> docField

def Const.record : Record Const :=
  Const.mk <$> .required "name" .string <*> .required "ty" Ty.decoder <*> docField

def Declaration.step (declaration : Decoder Declaration) : Decoder Declaration :=
  .tagged "Declaration" "kind"
    [("interface", .mapTo .interface (Interface.record.decoder "struct InterfaceDecl")),
      ("type_alias", .mapTo .alias (Alias.record.decoder "struct TypeAliasDecl")),
      ("namespace", Record.decoder
        (Declaration.nameSpace <$> .required "name" .string
          <*> .optional "body" [] (.list declaration) <*> docField)
        "struct NamespaceDecl"),
      ("enum", .mapTo .enumeration (Enumeration.record.decoder "struct EnumDecl")),
      ("const", .mapTo .const (Const.record.decoder "struct ConstDecl"))]

def Declaration.decoder : Decoder Declaration :=
  .fix Declaration.step

end Typings

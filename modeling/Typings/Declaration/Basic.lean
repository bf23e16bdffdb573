/-! # Declarations

The types and declarations of the target language. Synthesized declarations and hand-written ones
share them.

* `Keyword`, `Ty`, `Param`, `TupleElement`, `Member`: type expressions and the members of structural
  types.
* `Declaration`: interfaces, aliases, namespaces, enumerations and constants.
* `Ty.union`, `Ty.orUndefined`: ways to combine types.
* `Member.withDoc`, `Declaration.withDoc`, `Declaration.rename`: the same with another
  documentation or name.
-/

namespace Typings

/-- The types that the target language names by keywords. -/
inductive Keyword where
  | any
  | unknown
  | boolean
  | number
  | string
  | undefined
  | void
  | object
  deriving DecidableEq, Repr

def Keyword.text : Keyword → String
  | .any => "any"
  | .unknown => "unknown"
  | .boolean => "boolean"
  | .number => "number"
  | .string => "string"
  | .undefined => "undefined"
  | .void => "void"
  | .object => "object"

mutual

inductive Ty where
  | keyword (keyword : Keyword)
  /-- A name, applied to type arguments unless there are none. -/
  | reference (name : String) (args : List Ty)
  | text (value : String)
  | number (value : Int)
  | array (item : Ty)
  | tuple (elements : List TupleElement)
  | union (options : List Ty)
  | intersection (parts : List Ty)
  /-- A function type; without a return type it returns nothing. -/
  | function (params : List Param) (ret : Option Ty)
  /-- A structural type without a name. -/
  | literal (members : List Member)

/-- An element of a tuple; its name may be empty. -/
structure TupleElement where
  name : String
  ty : Ty
  optional : Bool

structure Param where
  name : String
  ty : Ty
  optional : Bool
  rest : Bool

/-- A member of an interface or of a structural type. -/
inductive Member where
  | property (name : String) (ty : Ty) (optional readonly : Bool) (doc : Option String)
  | setter (name : String) (param : Param) (doc : Option String)
  | method (name : String) (params : List Param) (ret : Option Ty) (doc : Option String)
  | call (params : List Param) (ret : Option Ty) (doc : Option String)
  | index (keyName : String) (key value : Ty) (readonly : Bool)

end

/-! ## Types -/

namespace Ty

def named (name : String) : Ty :=
  .reference name []

def any : Ty :=
  .keyword .any

/-- A union; one option stands for itself. -/
def unionOf : List Ty → Ty
  | [option] => option
  | options => .union options

/-- The type widened by `undefined`. -/
def orUndefined : Ty → Ty
  | .union options => .union (options ++ [.keyword .undefined])
  | ty => .union [ty, .keyword .undefined]

def referenceName? : Ty → Option String
  | .reference name _ => some name
  | _ => none

end Ty

def Param.plain (name : String) (ty : Ty) : Param :=
  ⟨name, ty, false, false⟩

/-! ## Members -/

inductive MemberShape where
  | property
  | setter
  | method
  | call
  | index
  deriving DecidableEq, Repr

def MemberShape.label : MemberShape → String
  | .property => "property"
  | .setter => "setter"
  | .method => "method"
  | .call => "call signature"
  | .index => "index signature"

namespace Member

def plainProperty (name : String) (ty : Ty) : Member :=
  .property name ty false false none

/-- The name of a member; call and index signatures have none. -/
def name? : Member → Option String
  | .property name _ _ _ _ => some name
  | .setter name _ _ => some name
  | .method name _ _ _ => some name
  | .call _ _ _ => none
  | .index _ _ _ _ => none

def shape : Member → MemberShape
  | .property _ _ _ _ _ => .property
  | .setter _ _ _ => .setter
  | .method _ _ _ _ => .method
  | .call _ _ _ => .call
  | .index _ _ _ _ => .index

def doc? : Member → Option String
  | .property _ _ _ _ doc => doc
  | .setter _ _ doc => doc
  | .method _ _ _ doc => doc
  | .call _ _ doc => doc
  | .index _ _ _ _ => none

def withDoc (doc : Option String) : Member → Member
  | .property name ty optional readonly _ => .property name ty optional readonly doc
  | .setter name param _ => .setter name param doc
  | .method name params ret _ => .method name params ret doc
  | .call params ret _ => .call params ret doc
  | .index keyName key value readonly => .index keyName key value readonly

def find? (members : List Member) (name : String) : Option Member :=
  members.find? (·.name? == some name)

end Member

/-! ## Declarations -/

structure Interface where
  name : String
  supertypes : List Ty := []
  members : List Member := []
  doc : Option String := none

structure Alias where
  name : String
  ty : Ty
  doc : Option String := none

structure EnumMember where
  name : String
  value : Int
  doc : Option String := none

structure Enumeration where
  name : String
  members : List EnumMember := []
  doc : Option String := none

structure Const where
  name : String
  ty : Ty
  doc : Option String := none

inductive Declaration where
  | interface (decl : Interface)
  | alias (decl : Alias)
  | nameSpace (name : String) (body : List Declaration) (doc : Option String)
  | enumeration (decl : Enumeration)
  | const (decl : Const)

inductive DeclarationKind where
  | interface
  | alias
  | nameSpace
  | enumeration
  | const
  deriving DecidableEq, Repr

def DeclarationKind.label : DeclarationKind → String
  | .interface => "interface"
  | .alias => "type alias"
  | .nameSpace => "namespace"
  | .enumeration => "enum"
  | .const => "const"

namespace Declaration

def aliasOf (name : String) (ty : Ty) : Declaration :=
  .alias ⟨name, ty, none⟩

def kind : Declaration → DeclarationKind
  | .interface _ => .interface
  | .alias _ => .alias
  | .nameSpace _ _ _ => .nameSpace
  | .enumeration _ => .enumeration
  | .const _ => .const

def name : Declaration → String
  | .interface decl => decl.name
  | .alias decl => decl.name
  | .nameSpace name _ _ => name
  | .enumeration decl => decl.name
  | .const decl => decl.name

def doc? : Declaration → Option String
  | .interface decl => decl.doc
  | .alias decl => decl.doc
  | .nameSpace _ _ doc => doc
  | .enumeration decl => decl.doc
  | .const decl => decl.doc

def rename (name : String) : Declaration → Declaration
  | .interface decl => .interface { decl with name := name }
  | .alias decl => .alias { decl with name := name }
  | .nameSpace _ body doc => .nameSpace name body doc
  | .enumeration decl => .enumeration { decl with name := name }
  | .const decl => .const { decl with name := name }

def withDoc (doc : Option String) : Declaration → Declaration
  | .interface decl => .interface { decl with doc := doc }
  | .alias decl => .alias { decl with doc := doc }
  | .nameSpace name body _ => .nameSpace name body doc
  | .enumeration decl => .enumeration { decl with doc := doc }
  | .const decl => .const { decl with doc := doc }

def members : Declaration → List Member
  | .interface decl => decl.members
  | _ => []

def supertypes : Declaration → List Ty
  | .interface decl => decl.supertypes
  | _ => []

end Declaration

end Typings

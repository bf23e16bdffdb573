import Typings.Declaration.Basic
import Typings.Text.Blank
import Typings.Text.Lines

/-! # Printing declarations

Declarations as text of the target language. What is printed for a declaration depends on nothing
but the declaration: its lines are indented as a block where it is nested.

* `quote`, `propertyName`: texts and names of members; a name that is no identifier is quoted.
* `Ty.print`, `Member.print`: types and members on one line, with parentheses where a looser type
  stands inside a tighter one.
* `docLines`: the lines of a documentation comment.
* `Declaration.lines`, `printDeclarations`: declarations, with an empty line between each two.
-/

namespace Typings

/-! ## Names and texts -/

def quotedChar (c : Char) : List Char :=
  if c = '\x22' then ['\\', '\x22']
  else if c = '\\' then ['\\', '\\']
  else if c = '\n' then ['\\', 'n']
  else [c]

def quote (text : String) : String :=
  .ofList ('\x22' :: text.toList.flatMap quotedChar ++ ['\x22'])

def isIdentifierStart (c : Char) : Bool :=
  c.isAlpha || c == '_' || c == '$'

def isIdentifier (name : String) : Bool :=
  match name.toList with
  | [] => false
  | c :: cs => isIdentifierStart c && cs.all fun c => isIdentifierStart c || c.isDigit

/-- The name of a member, quoted if it is no identifier. -/
def propertyName (name : String) : String :=
  if isIdentifier name then name else quote name

def textIf (condition : Bool) (text : String) : String :=
  if condition then text else ""

def parenthesized (text : String) : String :=
  "(" ++ text ++ ")"

/-! ## Types and members -/

namespace Ty

/-- Whether the type is put between parentheses as the item of an array. -/
def isLooserThanArray : Ty → Bool
  | .union _ | .intersection _ | .function _ _ => true
  | _ => false

/-- Whether the type is put between parentheses as a part of an intersection. -/
def isLooserThanIntersection : Ty → Bool
  | .union _ | .function _ _ => true
  | _ => false

/-- Whether the type is put between parentheses as an option of a union. -/
def isLooserThanUnion : Ty → Bool
  | .function _ _ => true
  | _ => false

end Ty

mutual

def Ty.print : Ty → String
  | .keyword keyword => keyword.text
  | .reference name [] => name
  | .reference name (arg :: args) =>
    name ++ "<" ++ ", ".intercalate (Ty.printAll (arg :: args)) ++ ">"
  | .text value => quote value
  | .number value => toString value
  | .array item =>
    (if item.isLooserThanArray then parenthesized item.print else item.print) ++ "[]"
  | .tuple elements => "[" ++ ", ".intercalate (TupleElement.printAll elements) ++ "]"
  | .union [] => "never"
  | .union (option :: options) => " | ".intercalate (Ty.printOptions (option :: options))
  | .intersection parts => " & ".intercalate (Ty.printParts parts)
  | .function params ret =>
    parenthesized (", ".intercalate (Param.printAll params)) ++ " => " ++ Ty.printReturn ret
  | .literal [] => "\x7b\x7d"
  | .literal (member :: members) =>
    "\x7b " ++ "; ".intercalate (Member.printAll (member :: members)) ++ " \x7d"

def Ty.printAll : List Ty → List String
  | [] => []
  | ty :: tys => ty.print :: Ty.printAll tys

def Ty.printOptions : List Ty → List String
  | [] => []
  | ty :: tys =>
    (if ty.isLooserThanUnion then parenthesized ty.print else ty.print) :: Ty.printOptions tys

def Ty.printParts : List Ty → List String
  | [] => []
  | ty :: tys =>
    (if ty.isLooserThanIntersection then parenthesized ty.print else ty.print)
      :: Ty.printParts tys

/-- A return type as text; a function without one returns nothing. -/
def Ty.printReturn : Option Ty → String
  | none => "void"
  | some ty => ty.print

def TupleElement.print : TupleElement → String
  | ⟨name, ty, optional⟩ =>
    if name.isEmpty then ty.print ++ textIf optional "?"
    else name ++ textIf optional "?" ++ ": " ++ ty.print

def TupleElement.printAll : List TupleElement → List String
  | [] => []
  | e :: es => e.print :: TupleElement.printAll es

def Param.print : Param → String
  | ⟨name, ty, optional, rest⟩ =>
    textIf rest "..." ++ name ++ textIf optional "?" ++ ": " ++ ty.print

def Param.printAll : List Param → List String
  | [] => []
  | p :: ps => p.print :: Param.printAll ps

def Member.print : Member → String
  | .property name ty optional readonly _ =>
    textIf readonly "readonly " ++ propertyName name ++ textIf optional "?" ++ ": " ++ ty.print
  | .setter name param _ => "set " ++ propertyName name ++ parenthesized param.print
  | .method name params ret _ =>
    propertyName name ++ parenthesized (", ".intercalate (Param.printAll params)) ++ ": "
      ++ Ty.printReturn ret
  | .call params ret _ =>
    parenthesized (", ".intercalate (Param.printAll params)) ++ ": " ++ Ty.printReturn ret
  | .index keyName key value readonly =>
    textIf readonly "readonly " ++ "[" ++ keyName ++ ": " ++ key.print ++ "]: " ++ value.print

def Member.printAll : List Member → List String
  | [] => []
  | m :: ms => m.print :: Member.printAll ms

end

/-! ## Lines -/

/-- A line of the output with the number of levels it is indented by. -/
structure Line where
  level : Nat
  text : String
  deriving DecidableEq, Repr

def Line.deeper (line : Line) : Line :=
  { line with level := line.level + 1 }

def Line.print (line : Line) : String :=
  .ofList (List.replicate (4 * line.level) ' ') ++ line.text ++ "\n"

def printLines (lines : List Line) : String :=
  String.join (lines.map Line.print)

def line (text : String) : Line :=
  ⟨0, text⟩

/-- The block of lines between an opening and a closing one. -/
def block (opening : String) (body : List Line) (closing : String) : List Line :=
  [line opening] ++ body.map Line.deeper ++ [line closing]

/-! ## Documentation comments -/

/-- The characters of a comment with every end of a comment broken up. -/
def breakCommentEnds : List Char → List Char
  | '*' :: '/' :: cs => '*' :: '\\' :: '/' :: breakCommentEnds cs
  | c :: cs => c :: breakCommentEnds cs
  | [] => []

def commentLine (text : String) : Line :=
  line (if text.isEmpty then " *" else " * " ++ text)

/-- The lines of a documentation comment; a blank documentation has none. -/
def docLines : Option String → List Line
  | none => []
  | some doc =>
    if Text.isBlankText doc then []
    else
      match Text.linesOf (.ofList (breakCommentEnds doc.toList)) with
      | [text] => [line ("/** " ++ text ++ " */")]
      | texts => [line "/**"] ++ texts.map commentLine ++ [line " */"]

/-! ## Declarations -/

def Member.lines (member : Member) : List Line :=
  docLines member.doc? ++ [line (member.print ++ ";")]

def Interface.lines (decl : Interface) : List Line :=
  let extending :=
    match decl.supertypes with
    | [] => ""
    | supertypes => " extends " ++ ", ".intercalate (Ty.printAll supertypes)
  let head := "interface " ++ decl.name ++ extending
  match decl.members with
  | [] => [line (head ++ " \x7b\x7d")]
  | members => block (head ++ " \x7b") (members.flatMap Member.lines) "\x7d"

def EnumMember.lines (member : EnumMember) : List Line :=
  docLines member.doc
    ++ [line (propertyName member.name ++ " = " ++ toString member.value ++ ",")]

/-- The word in front of a declaration that stands at the top. -/
def declareWord (atTop : Bool) : String :=
  textIf atTop "declare "

mutual

/-- The lines of a declaration; `atTop` tells whether it stands outside of all namespaces. -/
def Declaration.lines (atTop : Bool) : Declaration → List Line
  | .interface decl => docLines decl.doc ++ decl.lines
  | .alias decl => docLines decl.doc ++ [line ("type " ++ decl.name ++ " = " ++ decl.ty.print)]
  | .nameSpace name [] doc =>
    docLines doc ++ [line (declareWord atTop ++ "namespace " ++ name ++ " \x7b\x7d")]
  | .nameSpace name (decl :: decls) doc =>
    docLines doc
      ++ block (declareWord atTop ++ "namespace " ++ name ++ " \x7b")
        (decl.lines false ++ Declaration.bodyLines decls) "\x7d"
  | .enumeration decl =>
    docLines decl.doc
      ++ block (declareWord atTop ++ "enum " ++ decl.name ++ " \x7b")
        (decl.members.flatMap EnumMember.lines) "\x7d"
  | .const decl =>
    docLines decl.doc
      ++ [line (declareWord atTop ++ "const " ++ decl.name ++ ": " ++ decl.ty.print)]

def Declaration.bodyLines : List Declaration → List Line
  | [] => []
  | decl :: decls => decl.lines false ++ Declaration.bodyLines decls

end

def Declaration.print (decl : Declaration) : String :=
  printLines (decl.lines true)

/-- The declarations as text, with an empty line between each two. -/
def printDeclarations (decls : List Declaration) : String :=
  "\n".intercalate (decls.map Declaration.print)

end Typings

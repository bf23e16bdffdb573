import Typings.Synthesis.Merging

/-! # The tree of constants

A node with values becomes an enumeration, numbered in order from zero, and a node with subkeys a
namespace; a node with both becomes both, and a node with neither becomes `any`. The whole tree
stands in one namespace. An override of a node replaces it with all that is below it.
-/

namespace Typings.Synth

open Schema (Define NamedOption)

/-- Whether an override can stand for a node with or without values and subkeys. -/
def fitsNode (kind : DeclarationKind) (hasValues hasSubkeys : Bool) : Bool :=
  match kind with
  | .nameSpace => !hasValues || hasSubkeys
  | .enumeration => !hasSubkeys
  | _ => false

def overriddenNode (o : Override) (path name : String) (hasValues hasSubkeys : Bool)
    (doc : Option String) : Synth Declaration :=
  if fitsNode o.declaration.kind hasValues hasSubkeys then
    return (verbatim o doc).rename name
  else
    throw (.overrideKindMismatch path
      (.declaration (if hasSubkeys then .nameSpace else .enumeration)) o.declaration.kind)

/-- The member of an enumeration for a value, with its number. -/
def valueMember (ctx : Context) (path : String) (value : NamedOption × Nat) :
    Synth EnumMember := do
  let doc ← describe ctx (path ++ "." ++ value.1.name) value.1.description
  return ⟨value.1.name, value.2, doc⟩

def valueEnumeration (ctx : Context) (path name : String) (values : List NamedOption)
    (doc : Option String) : Synth Declaration := do
  let members ← each (valueMember ctx path) (Schema.inOrder values).zipIdx
  return .enumeration ⟨name, members, doc⟩

def emptyNode (path name : String) (doc : Option String) : Synth (List Declaration) := do
  note (.missingConstantDefinition path)
  return [.alias ⟨name, .any, doc⟩]

mutual

def nodeDeclarations (ctx : Context) (parent : String) : Define → Synth (List Declaration)
  | .node name _ description values subkeys => do
    let path := Schema.qualified parent name
    let doc ← describeEntity ctx path description [] []
    match ← findOverride ctx path [.nameSpace] with
    | some o => return [← overriddenNode o path name (!values.isEmpty) (!subkeys.isEmpty) doc]
    | none =>
      let leaf ← if values.isEmpty then pure [] else
        (fun d => [d]) <$> valueEnumeration ctx path name values doc
      let inner ← if subkeys.isEmpty then pure [] else
        (fun body : List (List Declaration) =>
            [Declaration.nameSpace name body.flatten (if values.isEmpty then doc else none)])
          <$> inOrder (nodeSteps ctx path subkeys)
      if values.isEmpty && subkeys.isEmpty then emptyNode path name doc
      else return leaf ++ inner

/-- The steps that make the declarations of each node, with the places of the nodes. -/
def nodeSteps (ctx : Context) (parent : String) :
    List Define → List (Placed (Synth (List Declaration)))
  | [] => []
  | d :: ds => ⟨d.order, nodeDeclarations ctx parent d⟩ :: nodeSteps ctx parent ds

end

/-- The declarations of the constants: one namespace, or nothing without constants. -/
def constants (ctx : Context) : Synth (List Declaration) := do
  if ctx.document.defines.isEmpty then return []
  else
    let root := ctx.config.constantsRoot
    let body ← inOrder (nodeSteps ctx root ctx.document.defines)
    return [.nameSpace root body.flatten none]

end Typings.Synth
